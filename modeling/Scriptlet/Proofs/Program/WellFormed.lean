import Scriptlet.Proofs.Parse.Anchored
import Scriptlet.Proofs.Program.Reprint
import Scriptlet.Proofs.Token.Spaced

/-! Parsing undoes printing. A tree may come from elsewhere than the parser: it is
well-formed if its operands bind at least as tightly as the grammar asks of them where
they stand, and its names, operators and values can be written in a source text. Then
the grammar derives it from some tokens, its source form says what these tokens say, and
the parser makes it again. Every tree that the grammar derives from the tokens of a source
text is well-formed, so these are just the trees of valid programs. -/
namespace Scriptlet
open Grammar
open Parse (Rule)

/-- A token of a kind that passes the test, with the text and the value of its kind. -/
structure Token.Sign (kinds : Kind → Bool) (t : Token) : Prop where
  sort : kinds t.kind = true
  valid : t.Valid

def Value.Spellable : Value → Prop
  | .nil | .truth _ => True
  | .number .undefined => False
  | .number (.infinite negative) | .number (.finite negative _) => negative = false
  | .text s => '"' ∉ s.toList

def Kind.binaryRule (kind : Kind) : Rule :=
  if kind.isEquality then .equality
  else if kind.isComparison then .comparison
  else if kind.isTerm then .term
  else .factor

namespace Expr

/-- The tightest rule of the grammar that makes trees of this form. -/
def level : Expr → Rule
  | .literal _ | .grouping _ | .reference _ => .primary
  | .unary _ _ => .unary
  | .binary _ operator _ => operator.kind.binaryRule
  | .conditional _ _ _ => .ternary
  | .assign _ _ => .assignment
  | .comma _ _ _ => .comma

/-- Each operand binds as tightly as the grammar asks where it stands. -/
def WellFormed : Expr → Prop
  | .literal value => value.Spellable
  | .grouping inner => inner.WellFormed
  | .unary operator right =>
    operator.Sign Parse.isUnaryOperator ∧ rank right.level ≤ rank .unary ∧ right.WellFormed
  | .binary left operator right =>
    -- chains grow to the left, so only the left operand may be of the same rule
    operator.Sign Kind.isBinaryOperator ∧ rank left.level ≤ rank operator.kind.binaryRule ∧
      rank right.level < rank operator.kind.binaryRule ∧ left.WellFormed ∧ right.WellFormed
  | .comma left operator right =>
    operator.Sign (· == .comma) ∧ rank right.level ≤ rank .assignment ∧ left.WellFormed ∧
      right.WellFormed
  | .conditional condition onTrue onFalse =>
    rank condition.level ≤ rank .equality ∧ rank onFalse.level ≤ rank .ternary ∧
      condition.WellFormed ∧ onTrue.WellFormed ∧ onFalse.WellFormed
  | .reference name => name.Sign (· == .identifier)
  | .assign name value =>
    name.Sign (· == .identifier) ∧ rank value.level ≤ rank .assignment ∧ value.WellFormed

end Expr

/-- Statements of well-formed trees, at any depth of blocks. -/
inductive Stmt.WellFormed : Stmt → Prop
  | expression {value : Expr} (formed : value.WellFormed) : WellFormed (.expression value)
  | print {value : Expr} (formed : value.WellFormed) : WellFormed (.print value)
  | bare {name : Token} (sign : name.Sign (· == .identifier)) : WellFormed (.declare name none)
  | initialized {name : Token} {value : Expr} (sign : name.Sign (· == .identifier))
      (formed : value.WellFormed) : WellFormed (.declare name (some value))
  | block {body : List Stmt} (inner : ∀ statement ∈ body, statement.WellFormed) :
      WellFormed (.block body)

section Made
open Token Lexical

theorem made_of_valid {t : Token} (valid : t.Valid) : t.Made := by
  obtain ⟨p, formed, _, text_eq, meaning⟩ := piece_of_lexeme valid.lexeme
  exact ⟨p, formed, meaning, by rw [text_eq, String.ofList_toList]⟩

private theorem ne_eof_of_made {t : Token} (made : t.Made) : t.kind ≠ .eof := by
  obtain ⟨p, formed, meaning, _⟩ := made
  exact Piece.kind_ne_eof formed meaning

private theorem made_mark {kind : Kind} (sort : kind.isMark = true) : (plain kind 0).Made :=
  ⟨.mark kind, sort, rfl, String.ofList_toList⟩

private theorem made_keyword {kind : Kind} (member : kind ∈ Kind.keywords) : (plain kind 0).Made := by
  obtain ⟨formed, same⟩ := keyword_letters member
  refine ⟨.word kind.spelling.toList, formed, ?_, String.ofList_toList⟩
  rw [Piece.meaning?, String.ofList_toList, same]
  rfl

private theorem made_number {n : Number} (spells : Number.Spells n.literal.toList n) :
    Token.Made ⟨.number, n.literal, 0, .number n⟩ := by
  obtain ⟨whole, fraction, text_eq, formed, same⟩ := spells
  refine ⟨.numeral whole fraction, formed, ?_, ?_⟩
  · rw [Piece.meaning?, same]
  · rw [← text_eq, String.ofList_toList]

private theorem made_text {s : String} (no_quote : '"' ∉ s.toList) :
    Token.Made ⟨.string, Value.spelled (.text s), 0, .text s⟩ := by
  refine ⟨.quoted s.toList, fun c member => ?_, ?_, ?_⟩
  · exact bne_iff_ne.2 fun same => no_quote (same ▸ member)
  · rw [Piece.meaning?, String.ofList_toList]
  · apply String.toList_inj.1
    simp [Piece.text, Value.spelled]

end Made

namespace Grammar
open Parse Token

theorem Chained.unique {r operand operand' : Rule} {isOperator isOperator' : Kind → Bool}
    {build build' : Expr → Token → Expr → Expr} (level : Chained r operand isOperator build)
    (level' : Chained r operand' isOperator' build') :
    operand = operand' ∧ isOperator = isOperator' ∧ build = build' := by
  cases level <;> cases level' <;> exact ⟨rfl, rfl, rfl⟩

section Derivations
variable {r operand : Rule} {isOperator : Kind → Bool} {build : Expr → Token → Expr → Expr}
  {ts us : List Token} {e left right : Expr}

theorem Derives.chained (level : Chained r operand isOperator build)
    (derived : Derives operand ts e) : Derives r ts e := by
  have alone : Derives r (ts ++ [].flatMap Link.yield) (folded build e []) :=
    .chain level derived (List.forall_mem_nil _) (List.forall_mem_nil _)
  rwa [List.flatMap_nil, List.append_nil] at alone

theorem Derives.step (derived : Derives (tighter r) ts e) : Derives r ts e := by
  cases r with
  | expression => exact .expression derived
  | comma => exact .chained .comma derived
  | assignment => exact .unassigned derived
  | ternary => exact .unconditional derived
  | equality => exact .chained .equality derived
  | comparison => exact .chained .comparison derived
  | term => exact .chained .term derived
  | factor => exact .chained .factor derived
  | unary => exact .plain derived
  | primary => exact derived

theorem Derives.looser (derived : Derives r ts e) {other : Rule} (below : rank r ≤ rank other) :
    Derives other ts e := by
  -- down from the looser rule, one step of the grammar at a time
  induction n : rank other generalizing other with
  | zero =>
    have same : r = other := eq_of_rank (by omega)
    exact same ▸ derived
  | succ n ih =>
    by_cases same : rank r = rank other
    · exact eq_of_rank same ▸ derived
    · have lower := rank_tighter other
      exact .step (ih (by omega) (by omega))

/-- An operation goes on with the chain of its left operand. -/
theorem Derives.snoc (level : Chained r operand isOperator build) (derived : Derives r ts left)
    {operator : Token} (sign : isOperator operator.kind = true) (derived' : Derives operand us right) :
    Derives r (ts ++ operator :: us) (build left operator right) := by
  cases derived with
  | @chain _ _ _ _ vs first links level' head operators operands =>
    obtain ⟨rfl, rfl, rfl⟩ := level.unique level'
    have longer : Derives r (vs ++ (links ++ [Link.mk operator us right]).flatMap Link.yield)
        (folded build first (links ++ [Link.mk operator us right])) :=
      .chain level head
        (List.forall_mem_append.2 ⟨operators, List.forall_mem_singleton.2 sign⟩)
        (List.forall_mem_append.2 ⟨operands, List.forall_mem_singleton.2 derived'⟩)
    simpa [folded, Link.yield] using longer
  | _ => cases level

end Derivations

/-- The rule makes the tree from tokens that a source text can have. -/
def Readable (r : Rule) (e : Expr) : Prop := ∃ ts, Derives r ts e ∧ ∀ t ∈ ts, t.Made

section Trees
variable {r operand : Rule} {isOperator : Kind → Bool} {build : Expr → Token → Expr → Expr}
  {e left right : Expr}

theorem Readable.looser {other : Rule} (readable : Readable r e) (below : rank r ≤ rank other) :
    Readable other e := by
  obtain ⟨ts, derived, made⟩ := readable
  exact ⟨ts, derived.looser below, made⟩

theorem Readable.snoc (level : Chained r operand isOperator build) (first : Readable r left)
    {operator : Token} (sort : isOperator operator.kind = true) (valid : operator.Valid)
    (second : Readable operand right) : Readable r (build left operator right) := by
  obtain ⟨ts, derived, made⟩ := first
  obtain ⟨us, derived', made'⟩ := second
  exact ⟨ts ++ operator :: us, derived.snoc level sort derived',
    List.forall_mem_append.2 ⟨made, List.forall_mem_cons.2 ⟨made_of_valid valid, made'⟩⟩⟩

private theorem chained_binaryRule {kind : Kind} (sort : kind.isBinaryOperator = true) :
    ∃ operand isOperator, Chained kind.binaryRule operand isOperator .binary ∧
      isOperator kind = true ∧ rank operand + 1 = rank kind.binaryRule := by
  cases kind with
  | bangEqual | equalEqual => exact ⟨_, _, .equality, rfl, rfl⟩
  | greater | greaterEqual | less | lessEqual => exact ⟨_, _, .comparison, rfl, rfl⟩
  | minus | plus => exact ⟨_, _, .term, rfl, rfl⟩
  | slash | star => exact ⟨_, _, .factor, rfl, rfl⟩
  | _ => cases sort

private theorem rank_level (e : Expr) : rank e.level ≤ rank .comma := by
  have binary (kind : Kind) : rank kind.binaryRule ≤ rank .equality := by
    unfold Kind.binaryRule
    split_ifs <;> decide
  cases e with
  | binary left operator right => exact Nat.le_trans (binary operator.kind) (by decide)
  | literal | grouping | unary | conditional | assign | comma | reference =>
    simp [Expr.level, rank]

private theorem readable_keyword {kind : Kind} {value : Value} (word : Constant kind value) :
    Readable .primary (.literal value) :=
  ⟨[.plain kind 0], .constant word,
    List.forall_mem_singleton.2 (made_keyword (keyword_of_constant word).1)⟩

private theorem readable_literal {value : Value} (spellable : value.Spellable) :
    Readable .primary (.literal value) := by
  have read : ∀ t : Token, t.kind = .number ∨ t.kind = .string → t.Made →
      Readable .primary (.literal t.literal) :=
    fun t sort made => ⟨[t], .read sort, List.forall_mem_singleton.2 made⟩
  cases value with
  | nil => exact readable_keyword .nilWord
  | truth value =>
    cases value with
    | false => exact readable_keyword .falseWord
    | true => exact readable_keyword .trueWord
  | number n =>
    refine read _ (.inl rfl) (made_number ?_)
    cases n with
    | undefined => exact spellable.elim
    | infinite negative =>
      cases spellable
      exact Number.spells_literal_infinite
    | finite negative m =>
      cases spellable
      exact Number.spells_literal_finite m
  | text s => exact read _ (.inr rfl) (made_text spellable)

private theorem readable_name {name : Token} (sign : name.Sign (· == .identifier)) :
    Readable .primary (.reference name) :=
  ⟨[name], .name (beq_iff_eq.1 sign.sort), List.forall_mem_singleton.2 (made_of_valid sign.valid)⟩

private theorem readable_grouping (inner : Readable .expression e) : Readable .primary (.grouping e) := by
  obtain ⟨ts, derived, made⟩ := inner
  refine ⟨.plain .leftParen 0 :: (ts ++ [.plain .rightParen 0]), .grouping rfl derived rfl, ?_⟩
  exact List.forall_mem_cons.2 ⟨made_mark rfl,
    List.forall_mem_append.2 ⟨made, List.forall_mem_singleton.2 (made_mark rfl)⟩⟩

private theorem readable_unary {operator : Token} (sign : operator.Sign isUnaryOperator)
    (operand : Readable .unary e) : Readable .unary (.unary operator e) := by
  obtain ⟨ts, derived, made⟩ := operand
  have sort : operator.kind = .bang ∨ operator.kind = .minus := by
    have passes := sign.sort
    unfold isUnaryOperator at passes
    split at passes <;> simp_all
  exact ⟨operator :: ts, .unary sort derived,
    List.forall_mem_cons.2 ⟨made_of_valid sign.valid, made⟩⟩

private theorem readable_conditional {condition onTrue onFalse : Expr} (first : Readable .equality condition)
    (second : Readable .expression onTrue) (third : Readable .ternary onFalse) :
    Readable .ternary (.conditional condition onTrue onFalse) := by
  obtain ⟨ts, derived, made⟩ := first
  obtain ⟨us, derived', made'⟩ := second
  obtain ⟨vs, derived'', made''⟩ := third
  refine ⟨ts ++ .plain .question 0 :: (us ++ .plain .colon 0 :: vs),
    .conditional derived rfl derived' rfl derived'', ?_⟩
  simp only [List.forall_mem_append, List.forall_mem_cons]
  exact ⟨made, made_mark rfl, made', made_mark rfl, made''⟩

private theorem readable_assign {name : Token} (target : Readable .ternary (.reference name))
    (source : Readable .assignment e) : Readable .assignment (.assign name e) := by
  obtain ⟨ts, derived, made⟩ := target
  obtain ⟨us, derived', made'⟩ := source
  exact ⟨ts ++ .plain .equal 0 :: us, .assign derived rfl derived',
    List.forall_mem_append.2 ⟨made, List.forall_mem_cons.2 ⟨made_mark rfl, made'⟩⟩⟩

theorem Readable.whole (readable : Readable e.level e) : Readable .expression e :=
  readable.looser (Nat.le_succ_of_le (rank_level e))

private theorem readable_of_wellFormed (formed : e.WellFormed) : Readable e.level e := by
  induction e with
  | literal value => exact readable_literal formed
  | grouping inner ih => exact readable_grouping (ih formed).whole
  | unary operator right ih =>
    obtain ⟨sign, bound, formed⟩ := formed
    exact readable_unary sign ((ih formed).looser bound)
  | binary left operator right left_ih right_ih =>
    obtain ⟨sign, bound, bound', formed, formed'⟩ := formed
    obtain ⟨operand, isOperator, level, sort, next⟩ := chained_binaryRule sign.sort
    exact .snoc level ((left_ih formed).looser bound) sort sign.valid
      ((right_ih formed').looser (by omega))
  | comma left operator right left_ih right_ih =>
    obtain ⟨sign, bound, formed, formed'⟩ := formed
    have sort := oneOf_iff.2 (List.mem_singleton.2 (beq_iff_eq.1 sign.sort))
    exact .snoc .comma ((left_ih formed).looser (rank_level left)) sort sign.valid
      ((right_ih formed').looser bound)
  | conditional condition onTrue onFalse ih true_ih false_ih =>
    obtain ⟨bound, bound', formed, formed', formed''⟩ := formed
    exact readable_conditional ((ih formed).looser bound) (true_ih formed').whole
      ((false_ih formed'').looser bound')
  | reference name => exact readable_name formed
  | assign name value ih =>
    obtain ⟨sign, bound, formed⟩ := formed
    exact readable_assign ((readable_name sign).looser (by decide)) ((ih formed).looser bound)

end Trees

private theorem program_of_declares {found : List Stmt}
    (each : ∀ made ∈ found, ∃ ts, Declares ts made ∧ ∀ t ∈ ts, t.Made) :
    ∃ ts, Program ts found ∧ ∀ t ∈ ts, t.Made := by
  induction found with
  | nil => exact ⟨[], .nil, List.forall_mem_nil _⟩
  | cons made found ih =>
    obtain ⟨first, later⟩ := List.forall_mem_cons.1 each
    obtain ⟨ts, declared, all⟩ := first
    obtain ⟨us, program, all'⟩ := ih later
    exact ⟨ts ++ us, .cons declared program, List.forall_mem_append.2 ⟨all, all'⟩⟩

private theorem declares_of_wellFormed {made : Stmt} (formed : made.WellFormed) :
    ∃ ts, Declares ts made ∧ ∀ t ∈ ts, t.Made := by
  have semicolon : (plain .semicolon 0).Made := made_mark rfl
  induction formed with
  | expression formed =>
    obtain ⟨ts, derived, all⟩ := (readable_of_wellFormed formed).whole
    exact ⟨ts ++ [.plain .semicolon 0], .expression derived rfl,
      List.forall_mem_append.2 ⟨all, List.forall_mem_singleton.2 semicolon⟩⟩
  | print formed =>
    obtain ⟨ts, derived, all⟩ := (readable_of_wellFormed formed).whole
    refine ⟨.plain .printWord 0 :: (ts ++ [.plain .semicolon 0]), .print rfl derived rfl, ?_⟩
    simp only [List.forall_mem_cons, List.forall_mem_append]
    exact ⟨made_keyword (by decide), all, semicolon, List.forall_mem_nil _⟩
  | @bare name sign =>
    refine ⟨[.plain .varWord 0, name, .plain .semicolon 0],
      .bare rfl (beq_iff_eq.1 sign.sort) rfl, ?_⟩
    simp only [List.forall_mem_cons]
    exact ⟨made_keyword (by decide), made_of_valid sign.valid, semicolon, List.forall_mem_nil _⟩
  | @initialized name value sign formed =>
    obtain ⟨ts, derived, all⟩ := (readable_of_wellFormed formed).whole
    refine ⟨.plain .varWord 0 :: name :: .plain .equal 0 :: (ts ++ [.plain .semicolon 0]),
      .initialized rfl (beq_iff_eq.1 sign.sort) rfl derived rfl, ?_⟩
    simp only [List.forall_mem_cons, List.forall_mem_append]
    exact ⟨made_keyword (by decide), made_of_valid sign.valid, made_mark rfl, all, semicolon,
      List.forall_mem_nil _⟩
  | block _ ih =>
    obtain ⟨ts, program, all⟩ := program_of_declares ih
    refine ⟨.plain .leftBrace 0 :: (ts ++ [.plain .rightBrace 0]), .block rfl program rfl, ?_⟩
    simp only [List.forall_mem_cons, List.forall_mem_append]
    exact ⟨made_mark rfl, all, made_mark rfl, List.forall_mem_nil _⟩

section Derived
variable {r operand : Rule} {isOperator : Kind → Bool} {build : Expr → Token → Expr → Expr}
  {ts : List Token} {e : Expr}

private theorem valid_of_made {t : Token} (made : t.Made) (usable : t.kind ≠ .error) : t.Valid := by
  obtain ⟨p, formed, meaning, text_eq⟩ := made
  have fits : p.Fits [] :=
    Piece.fits_of_loose (Piece.makes_of_meaning formed meaning) usable nofun
  refine ⟨usable, ?_⟩
  rw [← text_eq, String.toList_ofList]
  exact Lexical.lexeme_of_piece formed fits meaning

private theorem sign_of_made {t : Token} {kinds : Kind → Bool} (made : t.Made)
    (sort : kinds t.kind = true) (usable : kinds .error = false) : t.Sign kinds := by
  refine ⟨sort, valid_of_made made fun same => ?_⟩
  rw [same, usable] at sort
  cases sort

private theorem spellable_of_lexeme {kind : Kind} {literal : Value} {text rest : List Char}
    (lexeme : Lexical.Lexeme kind literal text rest) (usable : kind ≠ .error) :
    literal.Spellable := by
  cases lexeme with
  | mark | keyword | name => trivial
  | whole _ _ _ _ nearest | decimal _ _ _ _ _ nearest => cases nearest <;> rfl
  | @quoted content inside =>
    show '"' ∉ (String.ofList content).toList
    rwa [String.toList_ofList]
  | unexpected | strayClose | openQuote | openComment => exact absurd rfl usable

theorem Chained.binaryRule (level : Chained r operand isOperator build) (apart : r ≠ .comma)
    {kind : Kind} (sort : isOperator kind = true) :
    kind.binaryRule = r ∧ kind.isBinaryOperator = true := by
  cases level <;> cases kind <;> first | exact ⟨rfl, rfl⟩ | exact absurd rfl apart | cases sort

private theorem wellFormed_build (level : Chained r operand isOperator build) {left right : Expr}
    {operator : Token} (sort : isOperator operator.kind = true) (made : operator.Made)
    (formed : rank left.level ≤ rank r ∧ left.WellFormed)
    (formed' : rank right.level ≤ rank operand ∧ right.WellFormed) :
    (build left operator right).level = r ∧ (build left operator right).WellFormed := by
  have below := level.rank_operand
  cases level with
  | comma =>
    have sign := beq_iff_eq.2 (List.mem_singleton.1 (oneOf_iff.1 sort))
    exact ⟨rfl, sign_of_made made sign rfl, formed'.1, formed.2, formed'.2⟩
  | equality | comparison | term | factor =>
    obtain ⟨rule, binary⟩ := Chained.binaryRule (by constructor) (by decide) sort
    refine ⟨rule, sign_of_made made binary rfl, ?_, ?_, formed.2, formed'.2⟩
    · rw [rule]
      exact formed.1
    · rw [rule]
      exact Nat.lt_of_le_of_lt formed'.1 below

private theorem wellFormed_folded (level : Chained r operand isOperator build) {links : List Link}
    (operators : ∀ link ∈ links, isOperator link.operator.kind = true ∧ link.operator.Made)
    (operands : ∀ link ∈ links, rank link.right.level ≤ rank operand ∧ link.right.WellFormed)
    {first : Expr} (formed : rank first.level ≤ rank r ∧ first.WellFormed) :
    rank (folded build first links).level ≤ rank r ∧ (folded build first links).WellFormed := by
  induction links generalizing first with
  | nil => exact formed
  | cons link links ih =>
    obtain ⟨⟨sort, made⟩, operators⟩ := List.forall_mem_cons.1 operators
    obtain ⟨formed', operands⟩ := List.forall_mem_cons.1 operands
    obtain ⟨rule, built⟩ := wellFormed_build level sort made formed formed'
    exact ih operators operands ⟨by rw [rule], built⟩

theorem wellFormed_of_derives (derived : Derives r ts e) (made : ∀ t ∈ ts, t.Made) :
    rank e.level ≤ rank r ∧ e.WellFormed := by
  induction derived with
  | expression _ ih | unassigned _ ih | unconditional _ ih | plain _ ih =>
    obtain ⟨bound, formed⟩ := ih made
    exact ⟨Nat.le_succ_of_le bound, formed⟩
  | @chain r operand isOperator build ts first links level head operators operands ih links_ih =>
    obtain ⟨before, behind⟩ := List.forall_mem_append.1 made
    have inside : ∀ link ∈ links, link.operator.Made ∧ ∀ t ∈ link.tokens, t.Made :=
      fun link among => List.forall_mem_cons.1 fun t member =>
        behind t (List.mem_flatMap.2 ⟨link, among, member⟩)
    obtain ⟨bound, formed⟩ := ih before
    exact wellFormed_folded level (fun link among => ⟨operators link among, (inside link among).1⟩)
      (fun link among => links_ih link among (inside link among).2)
      ⟨Nat.le_trans bound level.rank_operand.le, formed⟩
  | assign _ sign _ ih value_ih =>
    simp only [List.forall_mem_append, List.forall_mem_cons] at made
    obtain ⟨before, _, behind⟩ := made
    exact ⟨Nat.le_refl _, (ih before).2, value_ih behind⟩
  | conditional _ ask _ choose _ ih true_ih false_ih =>
    simp only [List.forall_mem_append, List.forall_mem_cons] at made
    obtain ⟨before, _, between, _, behind⟩ := made
    obtain ⟨bound, formed⟩ := ih before
    obtain ⟨bound', formed'⟩ := false_ih behind
    exact ⟨Nat.le_refl _, bound, bound', formed, (true_ih between).2, formed'⟩
  | unary sign _ ih =>
    obtain ⟨operator, behind⟩ := List.forall_mem_cons.1 made
    refine ⟨Nat.le_refl _, sign_of_made operator ?_ rfl, ih behind⟩
    rcases sign with sign | sign <;> rw [sign] <;> rfl
  | @constant t value word =>
    refine ⟨Nat.le_refl _, ?_⟩
    generalize t.kind = kind at word
    cases word <;> trivial
  | @read t sort =>
    have usable : t.kind ≠ .error := by rcases sort with sort | sort <;> rw [sort] <;> decide
    have valid := valid_of_made (List.forall_mem_singleton.1 made) usable
    exact ⟨Nat.le_refl _, spellable_of_lexeme valid.lexeme usable⟩
  | name sort =>
    exact ⟨Nat.le_refl _, sign_of_made (List.forall_mem_singleton.1 made) (beq_iff_eq.2 sort) rfl⟩
  | grouping _ _ _ ih =>
    simp only [List.forall_mem_append, List.forall_mem_cons] at made
    exact ⟨Nat.le_refl _, (ih made.2.1).2⟩

mutual

private theorem wellFormed_of_declares : {ts : List Token} → {made : Stmt} → Declares ts made →
    (∀ t ∈ ts, t.Made) → made.WellFormed
  | _, _, .bare _ sort _, all => by
    simp only [List.forall_mem_cons] at all
    exact .bare (sign_of_made all.2.1 (beq_iff_eq.2 sort) rfl)
  | _, _, .initialized _ sort _ source _, all => by
    simp only [List.forall_mem_cons, List.forall_mem_append] at all
    exact .initialized (sign_of_made all.2.1 (beq_iff_eq.2 sort) rfl)
      (wellFormed_of_derives source all.2.2.2.1).2
  | _, _, .print _ source _, all => by
    simp only [List.forall_mem_cons, List.forall_mem_append] at all
    exact .print (wellFormed_of_derives source all.2.1).2
  | _, _, .expression source _, all =>
    .expression (wellFormed_of_derives source (List.forall_mem_append.1 all).1).2
  | _, _, .block _ inner _, all => by
    simp only [List.forall_mem_cons, List.forall_mem_append] at all
    exact .block (wellFormed_of_program inner all.2.1)

private theorem wellFormed_of_program : {ts : List Token} → {found : List Stmt} → Program ts found →
    (∀ t ∈ ts, t.Made) → ∀ statement ∈ found, statement.WellFormed
  | _, _, .nil, _ => List.forall_mem_nil _
  | _, _, .cons first rest, all => by
    obtain ⟨here, later⟩ := List.forall_mem_append.1 all
    exact List.forall_mem_cons.2
      ⟨wellFormed_of_declares first here, wellFormed_of_program rest later⟩

end

theorem wellFormed_of_isValid {limits : Limits} {source : String}
    (valid : (program limits (scan source)).isValid = true) :
    ∀ statement ∈ (program limits (scan source)).tree, statement.WellFormed := by
  obtain ⟨derived, _⟩ := program_sound (eq_of_isValid valid)
  rw [takeWhile_scan] at derived
  exact wellFormed_of_program derived fun t member => made_of_spoken member

end Derived

section Rebuilding
variable {limits : Limits} {tokens : List Token} {found : List Stmt}

private theorem program_of_derived (derived : Program (tokens.takeWhile (·.kind != .eof)) found)
    (room : Stmt.bodyNesting found ≤ limits.nesting)
    (shallow : Fault.tooDeep ∉ (program limits tokens).diagnostics.map (·.fault)) :
    program limits tokens = ⟨found, []⟩ := by
  rcases reads_or_deep derived room with reads | deep
  · exact program_of_reads reads derived room rfl
  · obtain ⟨d, member, fault⟩ := deep tokens [] (List.append_nil _).symm
    refine absurd (List.mem_map.2 ⟨d, ?_, fault⟩) shallow
    exact List.mem_reverse.2 member

/-- The source form of a well-formed program is valid and makes the same program again,
apart from lines, unless the levels of recursion run out. -/
theorem program_programSource (limits : Limits) (found : List Stmt)
    (formed : ∀ statement ∈ found, statement.WellFormed)
    (room : Stmt.bodyNesting found ≤ limits.nesting)
    (shallow : ∀ d ∈ (program limits (scan (Stmt.programSource found))).diagnostics,
      d.fault ≠ .tooDeep) :
    (program limits (scan (Stmt.programSource found))).isValid = true ∧
      (program limits (scan (Stmt.programSource found))).tree.map
          (Stmt.mapTokens (relined fun _ => 0)) =
        found.map (Stmt.mapTokens (relined fun _ => 0)) := by
  obtain ⟨ts, derived, made⟩ :=
    program_of_declares fun statement member => declares_of_wellFormed (formed statement member)
  have ended : (ts ++ [eof 1]).takeWhile (·.kind != .eof) = ts :=
    takeWhile_finish (fun t member => ne_eof_of_made (made t member)) rfl
  -- the printed tokens differ from these in lines and in how numbers are spelled only
  obtain ⟨tree, faults⟩ := program_sense limits (scan (Stmt.programSource found)) (ts ++ [eof 1])
    (by rw [ended, takeWhile_scan, sense_programSource derived made])
  have original : program limits (ts ++ [eof 1]) = ⟨found, []⟩ := by
    refine program_of_derived (ended.symm ▸ derived) room fun deep => ?_
    obtain ⟨d, member, fault⟩ := List.mem_map.1 (faults ▸ deep)
    exact shallow d member fault
  rw [original] at tree faults
  have valid : (program limits (scan (Stmt.programSource found))).isValid = true :=
    List.isEmpty_iff.2 (List.map_eq_nil_iff.1 faults)
  rw [map_sense valid, map_sense_of_derived derived] at tree
  exact ⟨valid, tree⟩

def difference : List Stmt :=
  [.block [.print (.binary (.reference ⟨.identifier, "a", 7, .nil⟩) (.plain .minus 7)
    (.binary (.unary (.plain .bang 8) (.literal .nil)) (.plain .star 8) (.literal (.text "b"))))]]

/-- The tree is made again, its operators now being on line 1. -/
theorem program_programSource_difference :
    Stmt.programSource difference = "\x7b print a - !nil * \"b\"; \x7d" ∧
      (program .standard (scan (Stmt.programSource difference))).isValid = true := by
  have ends {test : Char → Prop} : Lexical.Ends test [] := nofun
  have name : Token.Sign (· == .identifier) ⟨.identifier, "a", 7, .nil⟩ :=
    ⟨rfl, by decide, .name (.inl rfl) nofun (by decide) ends⟩
  have minus : Token.Sign Kind.isBinaryOperator (.plain .minus 7) := ⟨rfl, by decide, .mark rfl ends⟩
  have star : Token.Sign Kind.isBinaryOperator (.plain .star 8) := ⟨rfl, by decide, .mark rfl ends⟩
  have bang : Token.Sign isUnaryOperator (.plain .bang 8) := ⟨rfl, by decide, .mark rfl ends⟩
  have formed : ∀ statement ∈ difference, statement.WellFormed := by
    refine List.forall_mem_singleton.2 (.block (List.forall_mem_singleton.2 (.print ?_)))
    exact ⟨minus, by decide, by decide, name, star, by decide, by decide,
      ⟨bang, by decide, trivial⟩, by unfold Expr.WellFormed Value.Spellable; decide⟩
  have whole := program_programSource .standard difference formed (by decide) (by decide +kernel)
  exact ⟨by decide +kernel, whole.1⟩

end Rebuilding

end Grammar

end Scriptlet
