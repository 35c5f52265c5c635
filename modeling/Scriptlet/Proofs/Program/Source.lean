import Scriptlet.Proofs.Grammar.Completeness
import Scriptlet.Proofs.Token.Written
import Scriptlet.Program.Source

/-! The source form of a tree that the grammar derives is cut into the tokens it
is derived from, apart from lines and the spelling of numbers. No two tokens
run into each other: operators have blanks around them, and what follows a whole
expression is a blank or a closing mark. The operand of a unary operator never
starts with an equality sign, so that `!` stays by itself. -/
namespace Scriptlet

namespace Piece

def standsAlone : Kind → Bool
  | .bang | .equal | .less | .greater | .slash | .star => false
  | kind => kind.isMark

private theorem boundary_of_standsAlone {kind : Kind} (alone : standsAlone kind = true) (rest : List Char) :
    Boundary (joins kind.spelling.toList) rest := by
  intro c _
  cases kind <;> first | rfl | cases alone

private theorem boundary_of_ne_equal {rest : List Char} (apart : ∀ c, rest.head? = some c → c ≠ '=') :
    Boundary (joins Kind.bang.spelling.toList) rest := by
  intro c head
  have other := apart c head
  show joins ['!'] c = false
  unfold joins
  split <;> simp_all

private theorem boundary_blank {kind : Kind} (rest : List Char) :
    Boundary (joins kind.spelling.toList) (' ' :: rest) := by
  intro c head
  cases head
  exact (joins_loose _).1

end Piece

open Piece

private theorem loose_cons {c : Char} (stops : c = ' ' ∨ c = ')' ∨ c = ';' ∨ c = ',') (rest : List Char) :
    Loose (c :: rest) := by
  intro d head
  cases head
  exact stops

private theorem loose_blank (rest : List Char) : Loose (' ' :: rest) := loose_cons (.inl rfl) rest

private theorem loose_semicolon (rest : List Char) : Loose (';' :: rest) :=
  loose_cons (.inr (.inr (.inl rfl))) rest

namespace Writes
variable {text rest : List Char} {ts : List Token} {t : Token} {kind : Kind}

theorem blank (writes : Writes text ts rest) : Writes (' ' :: text) ts rest :=
  append (layout rfl) writes

theorem sign (made : t.Made) (sort : t.kind = kind) (mark_kind : kind.isMark = true)
    (apart : Boundary (joins kind.spelling.toList) rest) :
    Writes kind.spelling.toList [t] rest := by
  subst sort
  exact mark made mark_kind apart

theorem alone (rest : List Char) (made : t.Made) (sort : t.kind = kind)
    (alone : standsAlone kind = true) :
    Writes kind.spelling.toList [t] rest := by
  refine sign made sort ?_ (boundary_of_standsAlone alone rest)
  cases kind <;> first | rfl | cases alone

theorem lexeme (made : t.Made) (usable : t.kind ≠ .error ∧ t.kind ≠ .number) (loose : Loose rest) :
    Writes t.lexeme.toList [t] rest := by
  have written := token made usable.1 loose
  unfold Token.written at written
  rwa [if_neg usable.2] at written

theorem keyword (made : t.Made) (sort : t.kind = kind) (member : kind ∈ Kind.keywords)
    (loose : Loose rest) : Writes kind.spelling.toList [t] rest := by
  subst sort
  have usable : ∀ kind ∈ Kind.keywords, kind ≠ .error ∧ kind ≠ .number := by decide
  rw [← made.spelling (.inr member)]
  exact lexeme made (usable _ member) loose

private theorem first_equal (source : List Char) :
    (first '=' source).1 = .mark .equal ∨ (first '=' source).1 = .mark .equalEqual := by
  by_cases single : Boundary (joins ['=']) source
  · rw [first_eq_ofChar (by decide) single]
    exact .inl rfl
  · cases source with
    | nil => exact absurd nofun single
    | cons c source =>
      by_cases twice : c = '='
      · subst twice
        exact .inr rfl
      · refine absurd (fun d head => ?_) single
        cases head
        unfold joins
        split <;> simp_all

private theorem head_ne_equal (writes : Writes text (t :: ts) rest)
    (apart : t.kind ≠ .equal ∧ t.kind ≠ .equalEqual) : text.head? ≠ some '=' := by
  obtain ⟨pieces, rfl, separated, said⟩ := writes
  cases pieces with
  | nil => nofun
  | cons p more =>
    obtain ⟨formed, fits, _⟩ := separated
    cases starts : p.text with
    | nil => exact absurd starts (text_ne_nil formed)
    | cons c tail =>
      rw [List.flatMap_cons, starts]
      intro head
      cases head
      have shape := first_equal (tail ++ (more.flatMap Piece.text ++ rest))
      rw [first_text formed fits starts] at shape
      rcases shape with shape | shape <;>
        · subst shape
          have kind := congrArg Token.kind (List.cons.inj said).1
          first | exact apart.1 kind.symm | exact apart.2 kind.symm

end Writes

namespace Grammar
open Parse (Rule)

/-- The source form of the tree says what the tokens say. -/
def Printed (e : Expr) (ts : List Token) : Prop :=
  ∀ rest, Loose rest → Writes e.source.toList ts rest

section Expressions
variable {left right e : Expr} {ts us vs : List Token} {t : Token}

private theorem printed_binary (first : Printed left ts) (made : t.Made)
    (usable : t.kind ≠ .error ∧ t.kind ≠ .number) (second : Printed right us) :
    Printed (.binary left t right) (ts ++ t :: us) := by
  intro rest loose
  have operation := (Writes.lexeme made usable (loose_blank _)).append (second rest loose).blank
  have whole := (first _ (loose_blank _)).append operation.blank
  simpa [Expr.source] using whole

private theorem printed_comma (first : Printed left ts) (made : t.Made) (sort : t.kind = .comma)
    (second : Printed right us) : Printed (.comma left t right) (ts ++ t :: us) := by
  intro rest loose
  have operation := (Writes.alone _ made sort rfl).append (second rest loose).blank
  have whole := (first _ (loose_cons (.inr (.inr (.inr rfl))) _)).append operation
  simpa [Expr.source, Kind.spelling] using whole

private theorem printed_folded {r operand : Rule} {isOperator : Kind → Bool}
    {build : Expr → Token → Expr → Expr} (level : Chained r operand isOperator build)
    {links : List Link} (operators : ∀ link ∈ links, isOperator link.operator.kind = true)
    (made : ∀ link ∈ links, link.operator.Made)
    (operands : ∀ link ∈ links, Printed link.right link.tokens) (first : Printed left ts) :
    Printed (folded build left links) (ts ++ links.flatMap Link.yield) := by
  induction links generalizing left ts with
  | nil =>
    rw [List.flatMap_nil, List.append_nil]
    exact first
  | cons link links ih =>
    have operator := operators link (.head _)
    have one_more : Printed (build left link.operator link.right) (ts ++ link.yield) := by
      cases level with
      | comma =>
        have sort := List.mem_singleton.1 (oneOf_iff.1 operator)
        exact printed_comma first (made link (.head _)) sort (operands link (.head _))
      | equality | comparison | term | factor =>
        refine printed_binary first (made link (.head _)) ?_ (operands link (.head _))
        constructor <;>
          · intro sort
            rw [sort] at operator
            cases operator
    rw [List.flatMap_cons, ← List.append_assoc]
    exact ih (fun other among => operators other (.tail _ among))
      (fun other among => made other (.tail _ among))
      (fun other among => operands other (.tail _ among)) one_more

private theorem printed_assign {name equals : Token} (target : Printed (.reference name) ts)
    (sign : equals.Made) (kind : equals.kind = .equal) (source : Printed right us) :
    Printed (.assign name right) (ts ++ equals :: us) := by
  intro rest loose
  have assigned := (Writes.sign sign kind rfl (boundary_blank _)).append (source rest loose).blank
  have whole := (target _ (loose_blank _)).append assigned.blank
  simpa [Expr.source, Kind.spelling] using whole

private theorem printed_conditional {c onTrue onFalse : Expr} {question colon : Token}
    (condition : Printed c ts) (ask : question.Made) (sort : question.kind = .question)
    (then_branch : Printed onTrue us) (choose : colon.Made) (sort' : colon.kind = .colon)
    (else_branch : Printed onFalse vs) :
    Printed (.conditional c onTrue onFalse) (ts ++ question :: (us ++ colon :: vs)) := by
  intro rest loose
  have last := (Writes.alone _ choose sort' rfl).append (else_branch rest loose).blank
  have branches := (then_branch _ (loose_blank _)).append last.blank
  have asked := (Writes.alone _ ask sort rfl).append branches.blank
  have whole := (condition _ (loose_blank _)).append asked.blank
  simpa [Expr.source, Kind.spelling] using whole

private theorem printed_unary (made : t.Made) (sort : t.kind = .bang ∨ t.kind = .minus)
    (derived : Derives .unary ts right) (operand : Printed right ts) :
    Printed (.unary t right) (t :: ts) := by
  intro rest loose
  have inside := operand rest loose
  -- an equality sign would join a bang, nothing joins a minus
  have apart : Boundary (joins t.kind.spelling.toList) (right.source.toList ++ rest) := by
    rcases sort with sort | sort
    · obtain ⟨u, more, rfl, opens, _⟩ := head_of_derives derived
      have head := inside.head_ne_equal
        (by constructor <;> intro kind <;> rw [kind] at opens <;> cases opens)
      rw [sort]
      refine boundary_of_ne_equal fun c after => ?_
      rintro rfl
      cases text : right.source.toList with
      | nil =>
        rw [text] at after
        rcases loose _ after with same | same | same | same <;> cases same
      | cons d tail =>
        rw [text] at after head
        exact head after
    · rw [sort]
      exact boundary_of_standsAlone rfl _
  have mark_kind : t.kind.isMark = true := by rcases sort with sort | sort <;> rw [sort] <;> rfl
  have whole := (Writes.mark made mark_kind apart).append inside
  rw [← made.spelling (.inl mark_kind)] at whole
  simpa [Expr.source] using whole

private theorem printed_literal (made : t.Made) (sort : t.kind = .number ∨ t.kind = .string) :
    Printed (.literal t.literal) [t] := by
  intro rest loose
  have written := Writes.token made (by rcases sort with sort | sort <;> rw [sort] <;> decide) loose
  unfold Token.written at written
  unfold Expr.source
  split at written
  · exact written
  · rename_i no_number
    rwa [made.quoted (sort.resolve_left no_number)]

theorem keyword_of_constant {kind : Kind} {value : Value} (word : Constant kind value) :
    kind ∈ Kind.keywords ∧ value.spelled = kind.spelling := by
  cases word <;> exact ⟨by decide, rfl⟩

private theorem printed_constant {value : Value} (made : t.Made) (word : Constant t.kind value) :
    Printed (.literal value) [t] := by
  intro rest loose
  obtain ⟨member, spelled⟩ := keyword_of_constant word
  unfold Expr.source
  rw [spelled]
  exact Writes.keyword made rfl member loose

private theorem printed_grouping {opening closing : Token} (made : opening.Made)
    (opened : opening.kind = .leftParen) (inner : Printed e ts) (made' : closing.Made)
    (closed : closing.kind = .rightParen) :
    Printed (.grouping e) (opening :: (ts ++ [closing])) := by
  intro rest loose
  have inside := (inner _ (loose_cons (.inr (.inl rfl)) _)).append
    (.alone rest made' closed rfl)
  have whole := Writes.append (.alone _ made opened rfl) inside
  simpa [Expr.source, Kind.spelling] using whole

private theorem printed_of_derives {r : Rule} (derived : Derives r ts e) (made : ∀ t ∈ ts, t.Made) :
    Printed e ts := by
  induction derived with
  | expression _ ih | unassigned _ ih | unconditional _ ih | plain _ ih => exact ih made
  | @chain _ _ _ _ _ _ links level _ operators _ ih links_ih =>
    have among : ∀ link ∈ links, ∀ t ∈ link.yield, t.Made := fun link member t inside =>
      made t (List.mem_append_right _ (List.mem_flatMap.2 ⟨link, member, inside⟩))
    exact printed_folded level operators (fun link member => among link member _ (.head _))
      (fun link member => links_ih link member fun t inside => among link member t (.tail _ inside))
      (ih fun t inside => made t (List.mem_append_left _ inside))
  | assign _ sign _ ih value_ih =>
    simp only [List.mem_append, List.mem_cons] at made
    exact printed_assign (ih fun t inside => made t (.inl inside)) (made _ (.inr (.inl rfl))) sign
      (value_ih fun t inside => made t (.inr (.inr inside)))
  | conditional _ ask _ choose _ ih true_ih false_ih =>
    simp only [List.mem_append, List.mem_cons] at made
    exact printed_conditional (ih fun t inside => made t (.inl inside))
      (made _ (.inr (.inl rfl))) ask
      (true_ih fun t inside => made t (.inr (.inr (.inl inside))))
      (made _ (.inr (.inr (.inr (.inl rfl))))) choose
      (false_ih fun t inside => made t (.inr (.inr (.inr (.inr inside)))))
  | unary sign right ih =>
    exact printed_unary (made _ (.head _)) sign right (ih fun t inside => made t (.tail _ inside))
  | constant word => exact printed_constant (made _ (.head _)) word
  | read sort => exact printed_literal (made _ (.head _)) sort
  | name sort =>
    intro rest loose
    exact Writes.lexeme (made _ (.head _)) (by rw [sort]; decide) loose
  | grouping opened _ closed ih =>
    simp only [List.mem_append, List.mem_cons, List.not_mem_nil, or_false] at made
    have printed := ih fun t inside => made t (.inr (.inl inside))
    exact printed_grouping (made _ (.inl rfl)) opened printed (made _ (.inr (.inr rfl))) closed

end Expressions

section Statements
variable {ts : List Token} {rest : List Char} {finish : Token} {value : Expr}

private theorem writes_ended (rest : List Char) (source : Derives .expression ts value)
    (ended : finish.kind = .semicolon) (made : ∀ t ∈ ts ++ [finish], t.Made) :
    Writes (value.source.toList ++ [';']) (ts ++ [finish]) rest := by
  obtain ⟨inside, last⟩ := List.forall_mem_append.1 made
  have printed := printed_of_derives source inside
  exact (printed _ (loose_semicolon _)).append (.alone rest (last finish (.head _)) ended rfl)

private theorem writes_initialized {var name equals : Token} (word : var.kind = .varWord)
    (sort : name.kind = .identifier) (sign : equals.kind = .equal)
    (source : Derives .expression ts value) (ended : finish.kind = .semicolon)
    (made : ∀ t ∈ var :: name :: equals :: (ts ++ [finish]), t.Made) :
    Writes (Stmt.declare name (some value)).source.toList
      (var :: name :: equals :: (ts ++ [finish])) rest := by
  simp only [List.forall_mem_cons] at made
  obtain ⟨var_made, name_made, equals_made, later⟩ := made
  have assigned := (Writes.sign equals_made sign rfl (boundary_blank _)).append
    (writes_ended rest source ended later).blank
  have named := (Writes.lexeme name_made (by rw [sort]; decide) (loose_blank _)).append
    assigned.blank
  have whole := (Writes.keyword var_made word (by decide) (loose_blank _)).append named.blank
  simpa [Stmt.source, Kind.spelling] using whole

private theorem writes_bare {var name : Token} (word : var.kind = .varWord)
    (sort : name.kind = .identifier) (ended : finish.kind = .semicolon)
    (made : ∀ t ∈ [var, name, finish], t.Made) :
    Writes (Stmt.declare name none).source.toList [var, name, finish] rest := by
  simp only [List.forall_mem_cons] at made
  obtain ⟨var_made, name_made, finish_made, _⟩ := made
  have named := (Writes.lexeme name_made (by rw [sort]; decide) (loose_semicolon _)).append
    (.alone rest finish_made ended rfl)
  have whole := (Writes.keyword var_made word (by decide) (loose_blank _)).append named.blank
  simpa [Stmt.source, Kind.spelling] using whole

private theorem writes_print {print : Token} (word : print.kind = .printWord)
    (source : Derives .expression ts value) (ended : finish.kind = .semicolon)
    (made : ∀ t ∈ print :: (ts ++ [finish]), t.Made) :
    Writes (Stmt.print value).source.toList (print :: (ts ++ [finish])) rest := by
  obtain ⟨print_made, later⟩ := List.forall_mem_cons.1 made
  have whole := (Writes.keyword print_made word (by decide) (loose_blank _)).append
    (writes_ended rest source ended later).blank
  simpa [Stmt.source, Kind.spelling] using whole

private theorem writes_expression (source : Derives .expression ts value)
    (ended : finish.kind = .semicolon) (made : ∀ t ∈ ts ++ [finish], t.Made) :
    Writes (Stmt.expression value).source.toList (ts ++ [finish]) rest := by
  simpa [Stmt.source] using writes_ended rest source ended made

mutual

private theorem writes_declares : {ts : List Token} → {made_of : Stmt} → Declares ts made_of →
    (∀ t ∈ ts, t.Made) → ∀ rest, Writes made_of.source.toList ts rest
  | _, _, .bare leads sort ended, made, _ => writes_bare leads sort ended made
  | _, _, .initialized leads sort sign source ended, made, _ =>
    writes_initialized leads sort sign source ended made
  | _, _, .print leads source ended, made, _ => writes_print leads source ended made
  | _, _, .expression source ended, made, _ => writes_expression source ended made
  | _, _, .block opened inner closed, made, rest => by
    simp only [List.mem_append, List.mem_cons, List.not_mem_nil, or_false] at made
    have inside := writes_body inner fun t among => made t (.inr (.inl among))
    have ending := (inside _).append (.alone rest (made _ (.inr (.inr rfl))) closed rfl)
    have whole := (Writes.alone _ (made _ (.inl rfl)) opened rfl).append ending.blank
    simpa [Stmt.source, Kind.spelling] using whole

private theorem writes_body : {ts : List Token} → {found : List Stmt} → Program ts found →
    (∀ t ∈ ts, t.Made) → ∀ rest, Writes (Stmt.bodySource found).toList ts rest
  | _, _, .nil, _, _ => .nil
  | _, _, .cons first more, made, rest => by
    have later := writes_body more (fun t among => made t (List.mem_append_right _ among)) rest
    have earlier := writes_declares first (fun t among => made t (List.mem_append_left _ among))
    have whole := (earlier _).append later.blank
    simpa [Stmt.bodySource] using whole

end

theorem writes_program {ts : List Token} {found : List Stmt} (derived : Program ts found)
    (made : ∀ t ∈ ts, t.Made) : Writes (Stmt.programSource found).toList ts [] := by
  induction found generalizing ts with
  | nil =>
    cases derived
    exact .nil
  | cons statement found ih =>
    cases derived with
    | @cons us vs _ _ first more =>
      have here := writes_declares first fun t among => made t (List.mem_append_left _ among)
      have later := ih more fun t among => made t (List.mem_append_right _ among)
      cases found with
      | nil =>
        cases more
        simpa [Stmt.programSource] using here []
      | cons next found =>
        have whole := (here _).append (Writes.append (.layout (c := '\n') rfl) later)
        simpa [Stmt.programSource] using whole

end Statements

end Grammar

end Scriptlet
