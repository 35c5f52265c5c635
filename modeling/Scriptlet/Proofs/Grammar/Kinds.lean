import Scriptlet.Proofs.Grammar.Derivation

/-! Kinds of the tokens that the grammar uses. An expression has none that ends
or opens a statement, and no program has one of kind error. -/
namespace Scriptlet.Grammar
open Parse (Rule)

def inExpression : Kind → Bool
  | .leftParen | .rightParen | .comma | .minus | .plus | .slash | .star | .question | .colon
  | .bang | .bangEqual | .equal | .equalEqual | .greater | .greaterEqual | .less | .lessEqual
  | .identifier | .string | .number | .falseWord | .nilWord | .trueWord => true
  | _ => false

theorem Chained.inExpression {r operand : Rule} {isOperator : Kind → Bool}
    {build : Expr → Token → Expr → Expr} (level : Chained r operand isOperator build) {kind : Kind}
    (sign : isOperator kind = true) : inExpression kind = true := by
  cases level <;> cases kind <;> first | rfl | cases sign

theorem kinds_of_derives {r : Rule} {ts : List Token} {e : Expr} (derived : Derives r ts e) :
    ∀ t ∈ ts, inExpression t.kind = true := by
  induction derived with
  | expression _ ih | unassigned _ ih | unconditional _ ih | plain _ ih => exact ih
  | chain level _ operators _ ih links_ih =>
    intro t member
    rcases List.mem_append.1 member with first | later
    · exact ih t first
    · obtain ⟨link, among, inside⟩ := List.mem_flatMap.1 later
      rcases List.mem_cons.1 inside with rfl | right
      · exact level.inExpression (operators link among)
      · exact links_ih link among t right
  | assign _ sign _ ih value_ih =>
    intro t member
    rcases List.mem_append.1 member with target | later
    · exact ih t target
    · rcases List.mem_cons.1 later with rfl | value
      · rw [sign]; rfl
      · exact value_ih t value
  | conditional _ ask _ choose _ ih true_ih false_ih =>
    intro t member
    simp only [List.mem_append, List.mem_cons] at member
    rcases member with inside | rfl | inside | rfl | inside
    · exact ih t inside
    · rw [ask]; rfl
    · exact true_ih t inside
    · rw [choose]; rfl
    · exact false_ih t inside
  | unary sign _ ih =>
    intro t member
    rcases List.mem_cons.1 member with rfl | right
    · rcases sign with sign | sign <;> rw [sign] <;> rfl
    · exact ih t right
  | constant word =>
    intro t member
    rw [List.mem_singleton.1 member]
    cases kind : Token.kind _ <;> rw [kind] at word <;> first | rfl | cases word
  | read sort =>
    intro t member
    rw [List.mem_singleton.1 member]
    rcases sort with sort | sort <;> rw [sort] <;> rfl
  | name sort =>
    intro t member
    rw [List.mem_singleton.1 member, sort]
    rfl
  | grouping opened _ closed ih =>
    intro t member
    simp only [List.mem_append, List.mem_cons, List.not_mem_nil, or_false] at member
    rcases member with rfl | inside | rfl
    · rw [opened]; rfl
    · exact ih t inside
    · rw [closed]; rfl

private theorem usable_of_inExpression {kind : Kind} (inside : inExpression kind = true) :
    kind ≠ .error := by
  rintro rfl
  cases inside

mutual

private theorem usable_of_declares : {ts : List Token} → {made : Stmt} → Declares ts made →
    ∀ t ∈ ts, t.kind ≠ .error
  | _, _, .bare word sort ended => by
    intro t member
    simp only [List.mem_cons, List.not_mem_nil, or_false] at member
    rcases member with rfl | rfl | rfl <;> simp [word, sort, ended]
  | _, _, .initialized word sort sign source ended => by
    intro t member
    simp only [List.mem_cons, List.mem_append, List.not_mem_nil, or_false] at member
    rcases member with rfl | rfl | rfl | inside | rfl
    · simp [word]
    · simp [sort]
    · simp [sign]
    · exact usable_of_inExpression (kinds_of_derives source t inside)
    · simp [ended]
  | _, _, .print word source ended => by
    intro t member
    simp only [List.mem_cons, List.mem_append, List.not_mem_nil, or_false] at member
    rcases member with rfl | inside | rfl
    · simp [word]
    · exact usable_of_inExpression (kinds_of_derives source t inside)
    · simp [ended]
  | _, _, .expression source ended => by
    intro t member
    simp only [List.mem_cons, List.mem_append, List.not_mem_nil, or_false] at member
    rcases member with inside | rfl
    · exact usable_of_inExpression (kinds_of_derives source t inside)
    · simp [ended]
  | _, _, .block opened inner closed => by
    intro t member
    simp only [List.mem_cons, List.mem_append, List.not_mem_nil, or_false] at member
    rcases member with rfl | inside | rfl
    · simp [opened]
    · exact usable_of_program inner t inside
    · simp [closed]

theorem usable_of_program : {ts : List Token} → {found : List Stmt} → Program ts found →
    ∀ t ∈ ts, t.kind ≠ .error
  | _, _, .nil => fun _ member => absurd member List.not_mem_nil
  | _, _, .cons first rest => by
    intro t member
    rcases List.mem_append.1 member with inside | later
    · exact usable_of_declares first t inside
    · exact usable_of_program rest t later

end

theorem program_append {ts us : List Token} {found more : List Stmt} (first : Program ts found)
    (second : Program us more) : Program (ts ++ us) (found ++ more) := by
  induction found generalizing ts with
  | nil => cases first; exact second
  | cons made found ih =>
    cases first with
    | cons declared rest =>
      rw [List.append_assoc, List.cons_append]
      exact .cons declared (ih rest)

end Scriptlet.Grammar
