import Scriptlet.Proofs.Token.Piece
import Scriptlet.Token.Scan

/-! What the pieces of a text mean: a mark or a keyword stands for its kind, a
name for itself, a numeral and a quoted text for a value, and everything else
that is no layout is an error. -/
namespace Scriptlet

namespace Kind

private theorem spelling_of_ofWord {word : String} {kind : Kind} (sort : ofWord word = kind) :
    kind = .identifier ∨ kind ∈ keywords ∧ word = kind.spelling := by
  unfold ofWord at sort
  cases found : keywords.find? (·.spelling == word) with
  | none =>
    rw [found] at sort
    exact .inl sort.symm
  | some other =>
    rw [found] at sort
    obtain rfl : other = kind := sort
    have spelled : (other.spelling == word) = true :=
      List.find?_some (p := fun kind : Kind => kind.spelling == word) found
    exact .inr ⟨List.mem_of_find?_eq_some found, (beq_iff_eq.1 spelled).symm⟩

end Kind

namespace Piece

/-- The kinds and values that pieces of the right form stand for. -/
inductive Makes : Piece → Kind → Value → Prop
  | mark {kind} (sort : kind.isMark = true) : Makes (mark kind) kind .nil
  | name {letters} : Makes (word letters) .identifier .nil
  | keyword {letters kind} (member : kind ∈ Kind.keywords)
      (spelled : String.ofList letters = kind.spelling) : Makes (word letters) kind .nil
  | numeral {whole fraction} :
      Makes (numeral whole fraction) .number (.number (Number.ofNumeral whole fraction))
  | quoted {content} : Makes (quoted content) .string (.text (String.ofList content))
  | error {p message} (wrong : p.fault? = some message) : Makes p .error (.text message)

theorem Makes.eq_mark {p : Piece} {kind : Kind} {literal : Value} (makes : Makes p kind literal)
    (sort : kind.isMark = true) : p = .mark kind := by
  cases makes with
  | mark => rfl
  | keyword member =>
    have no_mark : ∀ kind ∈ Kind.keywords, kind.isMark = false := by decide
    rw [no_mark kind member] at sort
    cases sort
  | name | numeral | quoted | error => cases sort

theorem makes_of_meaning {p : Piece} {kind : Kind} {literal : Value} (formed : p.WellFormed)
    (meaning : p.meaning? = some (kind, literal)) : Makes p kind literal := by
  cases p with
  | mark kind =>
    cases meaning
    exact .mark formed
  | word letters =>
    obtain ⟨sort, rfl⟩ := Prod.mk.inj (Option.some.inj meaning)
    rcases Kind.spelling_of_ofWord sort with rfl | ⟨member, spelled⟩
    · exact .name
    · exact .keyword member spelled
  | numeral whole fraction =>
    cases meaning
    exact .numeral
  | quoted content =>
    cases meaning
    exact .quoted
  | unexpected | strayClose | openQuote | openComment =>
    cases meaning
    exact .error rfl
  | blank | lineComment | blockComment => cases meaning

theorem kind_ne_eof {p : Piece} (formed : p.WellFormed) {kind : Kind} {literal : Value}
    (meaning : p.meaning? = some (kind, literal)) : kind ≠ .eof := by
  rintro rfl
  cases makes_of_meaning formed meaning with
  | mark sort => cases sort
  | keyword member => revert member; decide

end Piece

end Scriptlet
