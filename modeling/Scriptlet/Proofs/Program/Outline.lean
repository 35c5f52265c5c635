import Scriptlet.Program.Source
import Scriptlet.Proofs.Session.Interactive
import Scriptlet.Proofs.Number.Faithful
import Scriptlet.Proofs.Program.WellFormed

/-! The outline determines the tree. In an outline a tree with operands starts with a
parenthesis and a label, and one without operands is a single word. A text that begins with
the outline of a tree therefore determines the words, and with them the tree and the rest of
the text: no word is a number as well, the number of operands tells a sign from a difference,
and a name in the place of an operand is never taken for a label. Texts and infinite numbers
are the exceptions, as they are not shown as they are spelled. -/
namespace Scriptlet
open Grammar Parse Token

/-- The expressions of a statement, at any depth of blocks. -/
inductive Stmt.Holds : Stmt → Expr → Prop
  | expression {e} : Holds (.expression e) e
  | print {e} : Holds (.print e) e
  | initializer {name e} : Holds (.declare name (some e)) e
  | block {body statement e} (member : statement ∈ body) (inside : Holds statement e) :
      Holds (.block body) e

namespace Expr

def operands : Expr → List Expr
  | .literal _ | .reference _ => []
  | .grouping inner => [inner]
  | .unary _ right => [right]
  | .binary left _ right | .comma left _ right => [left, right]
  | .conditional condition onTrue onFalse => [condition, onTrue, onFalse]
  | .assign _ value => [value]

/-- Expressions of a source that is parsed without faults, operands included. -/
inductive FromSource : Expr → Prop
  | statement {limits source statement e}
      (valid : (program limits (scan source)).isValid = true)
      (member : statement ∈ (program limits (scan source)).tree) (holds : statement.Holds e) :
      FromSource e
  | bare {limits source e} (found : (bareExpression limits (scan source)).tree = some e) :
      FromSource e
  | operand {whole e} (found : FromSource whole) (member : e ∈ whole.operands) :
      FromSource e

/-- No literal is a text or a number that is too large. -/
def Plain : Expr → Prop
  | .literal (.text _) | .literal (.number (.infinite _)) => False
  | .literal _ | .reference _ => True
  | .grouping inner => inner.Plain
  | .unary _ right | .assign _ right => right.Plain
  | .binary left _ right | .comma left _ right => left.Plain ∧ right.Plain
  | .conditional condition onTrue onFalse => condition.Plain ∧ onTrue.Plain ∧ onFalse.Plain

def unlined (e : Expr) : Expr := e.mapTokens (relined fun _ => 0)

section Taken
variable {e whole : Expr}

theorem WellFormed.operands (formed : whole.WellFormed) :
    ∀ operand ∈ whole.operands, operand.WellFormed := by
  cases whole with
  | literal | reference => exact List.forall_mem_nil _
  | grouping inner => exact List.forall_mem_singleton.2 formed
  | unary operator right | assign name right => exact List.forall_mem_singleton.2 formed.2.2
  | binary left operator right =>
    obtain ⟨_, _, _, first, second⟩ := formed
    exact List.forall_mem_cons.2 ⟨first, List.forall_mem_singleton.2 second⟩
  | comma left operator right =>
    obtain ⟨_, _, first, second⟩ := formed
    exact List.forall_mem_cons.2 ⟨first, List.forall_mem_singleton.2 second⟩
  | conditional condition onTrue onFalse =>
    obtain ⟨_, _, first, second, third⟩ := formed
    exact List.forall_mem_cons.2 ⟨first,
      List.forall_mem_cons.2 ⟨second, List.forall_mem_singleton.2 third⟩⟩

theorem Plain.operands (plain : whole.Plain) : ∀ operand ∈ whole.operands, operand.Plain := by
  cases whole with
  | literal | reference => exact List.forall_mem_nil _
  | grouping | unary | assign => exact List.forall_mem_singleton.2 plain
  | binary | comma =>
    exact List.forall_mem_cons.2 ⟨plain.1, List.forall_mem_singleton.2 plain.2⟩
  | conditional =>
    exact List.forall_mem_cons.2 ⟨plain.1,
      List.forall_mem_cons.2 ⟨plain.2.1, List.forall_mem_singleton.2 plain.2.2⟩⟩

private theorem wellFormed_of_holds {statement : Stmt} (holds : statement.Holds e)
    (formed : statement.WellFormed) : e.WellFormed := by
  induction holds with
  | expression => cases formed; assumption
  | print => cases formed; assumption
  | initializer => cases formed; assumption
  | block member _ ih =>
    cases formed with
    | block inner => exact ih (inner _ member)

private theorem FromSource.wellFormed (found : e.FromSource) : e.WellFormed := by
  induction found with
  | statement valid member holds =>
    exact wellFormed_of_holds holds (wellFormed_of_isValid valid _ member)
  | bare found =>
    obtain ⟨derived, _⟩ := bareExpression_sound found
    rw [takeWhile_scan] at derived
    exact (wellFormed_of_derives derived fun t among => made_of_spoken among).2
  | operand _ member ih => exact ih.operands _ member

end Taken

structure Legible (e : Expr) : Prop where
  formed : e.WellFormed
  plain : e.Plain

/-- What stands first between the parentheses of a tree with operands. -/
def label : Expr → String
  | .grouping _ => "group"
  | .unary operator _ | .binary _ operator _ | .comma _ operator _ => operator.lexeme
  | .conditional _ _ _ => "?:"
  | .assign _ _ => "="
  | .literal _ | .reference _ => ""

def parts : Expr → List Expr
  | .assign name value => [.reference name, value]
  | e => e.operands

def spread (parts : List Expr) : List Char := parts.flatMap fun e => ' ' :: e.outline.toList

private theorem spread_cons (e : Expr) (parts : List Expr) :
    spread (e :: parts) = ' ' :: (e.outline.toList ++ spread parts) :=
  List.flatMap_cons

private theorem outline_compound {e : Expr} (compound : e.parts ≠ []) :
    e.outline.toList = '(' :: (e.label.toList ++ (spread e.parts ++ [')'])) := by
  cases e <;> first
    | exact absurd rfl compound
    | simp [outline, label, parts, operands, spread]

private theorem outline_mapTokens {f : Token → Token} (lexeme : ∀ t, (f t).lexeme = t.lexeme) (e : Expr) :
    (e.mapTokens f).outline = e.outline := by
  induction e with
  | literal | reference => simp only [mapTokens, outline, lexeme]
  | grouping inner ih => simp only [mapTokens, outline, ih]
  | unary operator right ih | assign name right ih => simp only [mapTokens, outline, lexeme, ih]
  | binary left operator right ih ih' | comma left operator right ih ih' =>
    simp only [mapTokens, outline, lexeme, ih, ih']
  | conditional condition onTrue onFalse ih ih' ih'' => simp only [mapTokens, outline, ih, ih', ih'']

section Words

def isBare (c : Char) : Bool := c != ' ' && c != '(' && c != ')'

private theorem bare_append_inj {word word' rest rest' : List Char}
    (bare : ∀ c ∈ word, isBare c = true) (bare' : ∀ c ∈ word', isBare c = true)
    (stops : Piece.Boundary isBare rest) (stops' : Piece.Boundary isBare rest')
    (same : word ++ rest = word' ++ rest') : word = word' ∧ rest = rest' := by
  have words := congrArg (List.takeWhile isBare) same
  rw [Piece.takeWhile_boundary bare stops, Piece.takeWhile_boundary bare' stops'] at words
  subst words
  exact ⟨rfl, List.append_cancel_left same⟩

private theorem bare_of_isWordRest {c : Char} (inside : Piece.isWordRest c = true) : isBare c = true := by
  by_contra apart
  simp only [isBare, Bool.and_eq_true, bne_iff_ne, not_and_or, not_not] at apart
  rcases apart with (rfl | rfl) | rfl <;> revert inside <;> decide

private theorem bare_word {word : List Char} (formed : (Piece.word word).WellFormed) :
    ∀ c ∈ word, isBare c = true := by
  obtain ⟨c, more, rfl, start, inside⟩ := formed
  refine List.forall_mem_cons.2 ⟨bare_of_isWordRest ?_, fun d member => ?_⟩
  · unfold Piece.isWordRest
    rw [start, Bool.true_or]
  · exact bare_of_isWordRest (inside d member)

private theorem bare_digit {c : Char} (digit : c.isDigit = true) : isBare c = true := by
  refine bare_of_isWordRest ?_
  unfold Piece.isWordRest
  rw [digit, Bool.or_true]

private theorem bare_number (m : Magnitude) :
    ∀ c ∈ (Number.plain (.finite false m)).toList, isBare c = true := by
  have signs : ['.', 'e', '+', '-'].all isBare = true := by decide
  obtain ⟨quantity, written, -⟩ := Number.reads_plain m
  intro c member
  rcases written.inside c member with digit | sign
  · exact bare_digit digit
  · exact List.all_eq_true.1 signs c sign

def ofWord (word : String) : Expr :=
  match Kind.ofWord word with
  | .nilWord => .literal .nil
  | .trueWord => .literal (.truth true)
  | .falseWord => .literal (.truth false)
  | _ => .reference ⟨.identifier, word, 0, .nil⟩

/-- A tree without operands is a number, or is shown as the word that it is. -/
inductive Shown (e : Expr) : Prop
  | number {m : Magnitude} (same : e = .literal (.number (.finite false m)))
  | word (formed : (Piece.word e.outline.toList).WellFormed) (same : e.unlined = ofWord e.outline)

private theorem wellFormed_keyword (kind : Kind) (member : kind ∈ Kind.keywords) :
    (Piece.word kind.spelling.toList).WellFormed :=
  (Lexical.keyword_letters member).1

private theorem shown_name {name : Token} (sign : name.Sign (· == .identifier)) :
    Shown (.reference name) := by
  obtain ⟨p, formed, meaning, text_eq⟩ := made_of_valid sign.valid
  obtain ⟨kind, lexeme, line, literal⟩ := name
  obtain rfl : kind = .identifier := beq_iff_eq.1 sign.sort
  dsimp only at meaning text_eq
  cases p with
  | word letters =>
    obtain ⟨sort, rfl⟩ := Prod.mk.inj (Option.some.inj meaning)
    have text : letters = lexeme.toList := by
      rw [← text_eq, Piece.text, String.toList_ofList]
    rw [text] at formed sort
    rw [String.ofList_toList] at sort
    refine .word formed ?_
    show Expr.reference _ = ofWord lexeme
    unfold ofWord
    rw [sort]
    rfl
  | mark kind =>
    cases meaning
    cases formed
  | blank | lineComment | blockComment | numeral | quoted | unexpected | strayClose | openQuote
  | openComment => cases meaning

private theorem shown_of_legible {e : Expr} (legible : e.Legible) (single : e.parts = []) : Shown e := by
  obtain ⟨formed, plain⟩ := legible
  cases e with
  | literal value =>
    cases value with
    | nil => exact .word (wellFormed_keyword .nilWord (by decide)) rfl
    | truth value =>
      cases value with
      | false => exact .word (wellFormed_keyword .falseWord (by decide)) rfl
      | true => exact .word (wellFormed_keyword .trueWord (by decide)) rfl
    | number n =>
      cases n with
      | undefined => exact formed.elim
      | infinite => exact plain.elim
      | finite negative m =>
        cases formed
        exact .number rfl
    | text => exact plain.elim
  | reference name => exact shown_name formed
  | grouping | unary | binary | comma | conditional | assign => cases single

private theorem bare_shown {e : Expr} (shown : Shown e) : ∀ c ∈ e.outline.toList, isBare c = true := by
  cases shown with
  | @number m same =>
    rw [same]
    exact bare_number m
  | word formed _ => exact bare_word formed

private theorem outline_ne_nil {e : Expr} (shown : Shown e) : e.outline.toList ≠ [] := by
  cases shown with
  | @number m same =>
    obtain ⟨quantity, written, -⟩ := Number.reads_plain m
    obtain ⟨c, more, starts, -⟩ := written.digit
    rw [same]
    exact starts ▸ List.cons_ne_nil c more
  | word formed _ =>
    obtain ⟨c, more, starts, -⟩ := formed
    rw [starts]
    exact List.cons_ne_nil c more

private theorem plain_ne_word (m : Magnitude) :
    ¬(Piece.word (Number.plain (.finite false m)).toList).WellFormed := by
  rintro ⟨c, more, starts, letter, -⟩
  obtain ⟨quantity, written, -⟩ := Number.reads_plain m
  obtain ⟨d, rest, starts', digit⟩ := written.digit
  rw [starts] at starts'
  cases starts'
  rw [Piece.not_digit letter] at digit
  cases digit

private theorem unlined_of_shown {e e' : Expr} (shown : Shown e) (shown' : Shown e')
    (same : e.outline = e'.outline) : e.unlined = e'.unlined := by
  cases shown with
  | @number m number =>
    subst number
    cases shown' with
    | @number m' number' =>
      subst number'
      obtain ⟨-, rfl⟩ := Number.signed_eq_iff.1 (Number.plain_eq_iff.1 same)
      rfl
    | word formed _ =>
      rw [← same] at formed
      exact absurd formed (plain_ne_word m)
  | word formed made =>
    cases shown' with
    | @number m' number' =>
      subst number'
      rw [same] at formed
      exact absurd formed (plain_ne_word m')
    | word _ made' => rw [made, made', same]

end Words

section Rebuilding

def signOf (spelling : String) : Token :=
  match Kind.all.find? (·.spelling == spelling) with
  | some kind => .plain kind 0
  | none => default

def nameOf : Expr → Token
  | .reference name => name
  | _ => default

def built (label : String) : List Expr → Expr
  | [inner] => if label = "group" then .grouping inner else .unary (signOf label) inner
  | [left, right] =>
    if label = "," then .comma left (signOf label) right
    else if label = "=" then .assign (nameOf left) right
    else .binary left (signOf label) right
  | [condition, onTrue, onFalse] => .conditional condition onTrue onFalse
  | _ => default

def isOperator (kind : Kind) : Bool :=
  isUnaryOperator kind || kind.isBinaryOperator || kind == .comma

private theorem operator_spelling {kind : Kind} (operator : isOperator kind = true) :
    kind.isMark = true ∧ signOf kind.spelling = .plain kind 0 ∧
      kind.spelling.toList.all isBare = true ∧ kind.spelling ≠ "group" := by
  cases kind <;> first | decide | cases operator

private theorem binary_spelling {kind : Kind} (binary : kind.isBinaryOperator = true) :
    kind.spelling ≠ "," ∧ kind.spelling ≠ "=" := by
  cases kind <;> first | decide | cases binary

structure Spelled (t : Token) : Prop where
  operator : isOperator t.kind = true
  lexeme : t.lexeme = t.kind.spelling
  unlined : t.relined (fun _ => 0) = signOf t.lexeme

private theorem spelled_of_sign {t : Token} {kinds : Kind → Bool} (sign : t.Sign kinds)
    (operators : ∀ kind, kinds kind = true → isOperator kind = true) : Spelled t := by
  have operator := operators t.kind sign.sort
  obtain ⟨mark, found, -⟩ := operator_spelling operator
  have made := made_of_valid sign.valid
  have spelled := made.spelling (.inl mark)
  obtain ⟨p, formed, meaning, -⟩ := made
  obtain rfl := (Piece.makes_of_meaning formed meaning).eq_mark mark
  have literal := (Prod.mk.inj (Option.some.inj meaning)).2
  refine ⟨operator, spelled, ?_⟩
  rw [spelled, found]
  unfold relined Token.plain
  rw [spelled, ← literal]

theorem Spelled.bare {t : Token} (spelled : Spelled t) :
    ∀ c ∈ t.lexeme.toList, isBare c = true := by
  rw [spelled.lexeme]
  exact List.all_eq_true.1 (operator_spelling spelled.operator).2.2.1

section Operators
variable {left right : Expr} {operator : Token}

private theorem spelled_unary (formed : (unary operator right).WellFormed) : Spelled operator :=
  spelled_of_sign formed.1 fun kind sort => by rw [isOperator, sort]; rfl

private theorem spelled_binary (formed : (binary left operator right).WellFormed) : Spelled operator :=
  spelled_of_sign formed.1 fun kind sort => by rw [isOperator, sort, Bool.or_true]; rfl

private theorem spelled_comma (formed : (comma left operator right).WellFormed) : Spelled operator :=
  spelled_of_sign formed.1 fun kind sort => by rw [isOperator, sort, Bool.or_true]

end Operators

private theorem bare_label {e : Expr} (formed : e.WellFormed) : ∀ c ∈ e.label.toList, isBare c = true := by
  cases e with
  | unary => exact (spelled_unary formed).bare
  | binary => exact (spelled_binary formed).bare
  | comma => exact (spelled_comma formed).bare
  | grouping => exact List.all_eq_true.1 (show "group".toList.all isBare = true by decide)
  | conditional => exact List.all_eq_true.1 (show "?:".toList.all isBare = true by decide)
  | assign => exact List.all_eq_true.1 (show "=".toList.all isBare = true by decide)
  | literal | reference => exact List.forall_mem_nil _

private theorem unlined_eq_built {e : Expr} (formed : e.WellFormed) (compound : e.parts ≠ []) :
    e.unlined = built e.label (e.parts.map unlined) := by
  cases e with
  | literal | reference => exact absurd rfl compound
  | grouping | conditional | assign => rfl
  | unary operator right =>
    have spelled := spelled_unary formed
    have label := (operator_spelling spelled.operator).2.2.2
    rw [← spelled.lexeme] at label
    show unary (operator.relined _) right.unlined = _
    rw [spelled.unlined]
    exact (if_neg label).symm
  | comma left operator right =>
    have spelled := spelled_comma formed
    have label : operator.lexeme = "," := by
      rw [spelled.lexeme, beq_iff_eq.1 formed.1.sort]
      rfl
    show comma left.unlined (operator.relined _) right.unlined = _
    rw [spelled.unlined]
    exact (if_pos label).symm
  | binary left operator right =>
    have spelled := spelled_binary formed
    obtain ⟨no_comma, no_equal⟩ := binary_spelling formed.1.sort
    rw [← spelled.lexeme] at no_comma no_equal
    show binary left.unlined (operator.relined _) right.unlined = _
    rw [spelled.unlined]
    exact ((if_neg no_comma).trans (if_neg no_equal)).symm

end Rebuilding

section Reading

theorem Legible.part {e part : Expr} (legible : e.Legible) (member : part ∈ e.parts) :
    part.Legible := by
  have operands : ∀ operand ∈ e.operands, operand.Legible := fun operand among =>
    ⟨legible.formed.operands operand among, legible.plain.operands operand among⟩
  cases e with
  | assign name value =>
    -- the name is shown like an operand
    have target : (reference name).Legible := ⟨legible.formed.1, trivial⟩
    exact List.forall_mem_cons.2 ⟨target, operands⟩ part member
  | literal | grouping | unary | binary | comma | conditional | reference =>
    exact operands part member

/-- A text that begins with the outline of this tree begins with that of no other one. -/
def Determined (e : Expr) : Prop :=
  ∀ (e' : Expr) (rest rest' : List Char), e'.Legible → Piece.Boundary isBare rest →
    Piece.Boundary isBare rest' → e.outline.toList ++ rest = e'.outline.toList ++ rest' →
    e.unlined = e'.unlined ∧ rest = rest'

private theorem boundary_open (rest : List Char) : Piece.Boundary isBare ('(' :: rest) := by
  intro c head
  cases head
  rfl

private theorem boundary_spread (parts : List Expr) (rest : List Char) :
    Piece.Boundary isBare (spread parts ++ ')' :: rest) := by
  intro c head
  cases parts <;>
    · cases head
      rfl

private theorem determined_single {e : Expr} (legible : e.Legible) (single : e.parts = []) :
    Determined e := by
  intro e' rest rest' legible' stops stops' same
  have shown := shown_of_legible legible single
  by_cases single' : e'.parts = []
  · have shown' := shown_of_legible legible' single'
    obtain ⟨words, rests⟩ :=
      bare_append_inj (bare_shown shown) (bare_shown shown') stops stops' same
    exact ⟨unlined_of_shown shown shown' (String.toList_inj.1 words), rests⟩
  · rw [outline_compound single'] at same
    have nothing := bare_append_inj (bare_shown shown) (List.forall_mem_nil _) stops
      (boundary_open _) same
    exact absurd nothing.1 (outline_ne_nil shown)

private theorem determined_spread {parts parts' : List Expr} {rest rest' : List Char}
    (determined : ∀ part ∈ parts, Determined part) (legible : ∀ part ∈ parts', Legible part)
    (same : spread parts ++ ')' :: rest = spread parts' ++ ')' :: rest') :
    parts.map unlined = parts'.map unlined ∧ rest = rest' := by
  induction parts generalizing parts' with
  | nil =>
    cases parts' with
    | nil => exact ⟨rfl, (List.cons.inj same).2⟩
    | cons part parts' => cases same
  | cons part parts ih =>
    cases parts' with
    | nil => cases same
    | cons part' parts' =>
      obtain ⟨here, later⟩ := List.forall_mem_cons.1 determined
      obtain ⟨here', later'⟩ := List.forall_mem_cons.1 legible
      rw [spread_cons, spread_cons] at same
      simp only [List.cons_append, List.append_assoc] at same
      obtain ⟨first, behind⟩ := here part' _ _ here' (boundary_spread _ _) (boundary_spread _ _)
        (List.cons.inj same).2
      obtain ⟨others, rests⟩ := ih later later' behind
      exact ⟨by rw [List.map_cons, List.map_cons, first, others], rests⟩

private theorem determined_compound {e : Expr} (legible : e.Legible) (compound : e.parts ≠ [])
    (parts : ∀ part ∈ e.parts, part.Legible → Determined part) : Determined e := by
  intro e' rest rest' legible' stops stops' same
  rw [outline_compound compound] at same
  by_cases single' : e'.parts = []
  · have shown' := shown_of_legible legible' single'
    have nothing := bare_append_inj (List.forall_mem_nil _) (bare_shown shown') (boundary_open _)
      stops' same
    exact absurd nothing.1.symm (outline_ne_nil shown')
  · rw [outline_compound single'] at same
    simp only [List.cons_append, List.append_assoc, List.nil_append] at same
    obtain ⟨labels, operands⟩ := bare_append_inj (bare_label legible.formed)
      (bare_label legible'.formed) (boundary_spread _ _) (boundary_spread _ _)
      (List.cons.inj same).2
    obtain ⟨trees, rests⟩ := determined_spread
      (fun part member => parts part member (legible.part member))
      (fun part member => legible'.part member) operands
    refine ⟨?_, rests⟩
    rw [unlined_eq_built legible.formed compound, unlined_eq_built legible'.formed single',
      String.toList_inj.1 labels, trees]

private theorem determined_of_legible {e : Expr} (legible : e.Legible) : Determined e := by
  induction e with
  | literal | reference => exact determined_single legible rfl
  | grouping inner ih | unary operator inner ih =>
    exact determined_compound legible (List.cons_ne_nil _ _) (List.forall_mem_singleton.2 ih)
  | binary left operator right ih ih' | comma left operator right ih ih' =>
    exact determined_compound legible (List.cons_ne_nil _ _)
      (List.forall_mem_cons.2 ⟨ih, List.forall_mem_singleton.2 ih'⟩)
  | conditional condition onTrue onFalse ih ih' ih'' =>
    exact determined_compound legible (List.cons_ne_nil _ _)
      (List.forall_mem_cons.2 ⟨ih, List.forall_mem_cons.2 ⟨ih', List.forall_mem_singleton.2 ih''⟩⟩)
  | assign name value ih =>
    have target (legible : (reference name).Legible) := determined_single legible rfl
    exact determined_compound legible (List.cons_ne_nil _ _)
      (List.forall_mem_cons.2 ⟨target, List.forall_mem_singleton.2 ih⟩)

/-- The outline of an expression of a source determines it, apart from lines. -/
theorem outline_eq_iff {e e' : Expr} (found : e.FromSource) (found' : e'.FromSource)
    (plain : e.Plain) (plain' : e'.Plain) :
    e.outline = e'.outline ↔ e.unlined = e'.unlined := by
  constructor
  · intro same
    have determined := determined_of_legible ⟨found.wellFormed, plain⟩
    exact (determined e' [] [] ⟨found'.wellFormed, plain'⟩ nofun nofun (by rw [same])).1
  · intro same
    have unseen (e : Expr) : e.unlined.outline = e.outline :=
      outline_mapTokens (f := relined fun _ => 0) (fun _ => rfl) e
    rw [← unseen e, same, unseen e']

/-- A text is shown without its quotes, as a name of the same letters is. -/
example : (literal (.text "a")).outline = (reference ⟨.identifier, "a", 1, .nil⟩).outline := rfl

/-- A name like a label, and a difference of it and a negated number, on this line. -/
def negated (line : Int) : Expr :=
  .binary (.grouping (.reference ⟨.identifier, "group", 1, .nil⟩)) (.plain .minus line)
    (.unary (.plain .minus line) (.literal (.number (Number.ofNumeral ['1'] ['5']))))

/-- The number is spelled in two ways, and the operators are on two lines. -/
theorem outline_eq_iff_negated :
    (negated 1).FromSource ∧ (negated 2).FromSource ∧
      (negated 1).outline = "(- (group group) (- 1.5))" ∧
      (negated 1).unlined = (negated 2).unlined := by
  have found : (negated 1).FromSource :=
    @FromSource.statement .standard "(group) - -1.5;" _ _ (by decide +kernel) (by decide +kernel)
      .expression
  have found' : (negated 2).FromSource :=
    @FromSource.statement .standard "(group)\n- -1.50;" _ _ (by decide +kernel)
      (by decide +kernel) .expression
  obtain ⟨m, finite⟩ : ∃ m, Number.ofNumeral ['1'] ['5'] = .finite false m :=
    (Number.ofNumeral_cases _ _).resolve_right (by decide +kernel)
  have plain (line : Int) : (negated line).Plain := by
    unfold negated
    rw [finite]
    exact ⟨trivial, trivial⟩
  exact ⟨found, found', by decide +kernel,
    (outline_eq_iff found found' (plain 1) (plain 2)).1 (by decide +kernel)⟩

end Reading

end Expr

end Scriptlet
