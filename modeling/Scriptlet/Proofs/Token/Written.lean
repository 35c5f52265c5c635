import Scriptlet.Proofs.Number.Literal
import Scriptlet.Proofs.Token.Lines

/-! Writing tokens out. A token that a piece of a text makes can be written in
another text: by its own text, or, if it is a number, by the literal form of its
value. What a written text says is the sense of its tokens, which leaves out the
lines and how numbers are spelled. Written texts are put together as long as no
token runs into the text after it. -/
namespace Scriptlet

namespace Token

/-- What a token says, wherever it stands and however a number is spelled. -/
def sense (t : Token) : Token :=
  { t with lexeme := if t.kind = .number then "" else t.lexeme, line := 0 }

def Made (t : Token) : Prop :=
  ∃ p : Piece,
    p.WellFormed ∧ p.meaning? = some (t.kind, t.literal) ∧ String.ofList p.text = t.lexeme

def written (t : Token) : List Char :=
  if t.kind = .number then t.literal.spelled.toList else t.lexeme.toList

end Token

namespace Piece
open Token

def sense? (p : Piece) : Option Token :=
  p.meaning?.map fun (kind, literal) =>
    ⟨kind, if kind = .number then "" else String.ofList p.text, 0, literal⟩

private theorem sense_token? (line : Int) (p : Piece) : (p.token? line).map Token.sense = p.sense? := by
  unfold token? sense?
  rw [Option.map_map]
  rfl

private theorem sense_of_made {p : Piece} {t : Token} (meaning : p.meaning? = some (t.kind, t.literal))
    (text_eq : t.kind ≠ .number → String.ofList p.text = t.lexeme) : p.sense? = some t.sense := by
  unfold sense? Token.sense
  rw [meaning, Option.map_some]
  congr 1
  by_cases number : t.kind = .number
  · simp [number]
  · simp [number, text_eq number]

end Piece

namespace Token
open Piece

theorem sense_spoken (line : Int) (pieces : List Piece) :
    (spoken line pieces).map sense = pieces.filterMap Piece.sense? := by
  induction pieces generalizing line with
  | nil => rfl
  | cons p more ih =>
    rw [spoken, List.map_append, ih, List.filterMap_cons, ← sense_token? line p]
    cases p.token? line <;> rfl

theorem made_of_spoken {line : Int} {source : List Char} {t : Token}
    (member : t ∈ spoken line (cut source)) : t.Made := by
  have formed := (separated_cut source).formed
  generalize cut source = pieces at member formed
  induction pieces generalizing line with
  | nil => cases member
  | cons p more ih =>
    rcases List.mem_append.1 member with here | later
    · refine ⟨p, formed p (.head _), kind_of_token? (Option.mem_toList.1 here), ?_⟩
      unfold token? at here
      obtain ⟨_, _, rfl⟩ := Option.map_eq_some_iff.1 (Option.mem_toList.1 here)
      rfl
    · exact ih later fun q among => formed q (.tail _ among)

theorem Made.spelling {t : Token} (made : t.Made)
    (plain : t.kind.isMark = true ∨ t.kind ∈ Kind.keywords) : t.lexeme = t.kind.spelling := by
  obtain ⟨p, formed, meaning, text_eq⟩ := made
  have makes := makes_of_meaning formed meaning
  rw [← text_eq]
  generalize t.kind = kind at makes plain ⊢
  generalize t.literal = literal at makes
  cases makes with
  | mark sort => exact String.ofList_toList
  | keyword member spelled => exact spelled
  | name | numeral | quoted | error => exact absurd plain (by decide)

theorem Made.quoted {t : Token} (made : t.Made) (sort : t.kind = .string) :
    t.literal.spelled = t.lexeme := by
  obtain ⟨p, formed, meaning, text_eq⟩ := made
  have makes := makes_of_meaning formed meaning
  rw [← text_eq]
  generalize t.kind = kind at makes sort
  generalize t.literal = literal at makes ⊢
  subst sort
  cases makes with
  | mark sort => cases sort
  | keyword member => exact absurd member (by decide)
  | quoted =>
    apply String.toList_inj.1
    simp [Value.spelled, text]

theorem Made.numeral {t : Token} (made : t.Made) (sort : t.kind = .number) :
    ∃ whole fraction, t.literal = .number (Number.ofNumeral whole fraction) := by
  obtain ⟨p, formed, meaning, _⟩ := made
  have makes := makes_of_meaning formed meaning
  generalize t.kind = kind at makes sort
  generalize t.literal = literal at makes ⊢
  subst sort
  cases makes with
  | mark sort => cases sort
  | keyword member => exact absurd member (by decide)
  | @numeral whole fraction => exact ⟨whole, fraction, rfl⟩

private theorem Made.piece {t : Token} (made : t.Made) :
    ∃ p : Piece, p.WellFormed ∧ p.sense? = some t.sense ∧ p.text = t.written ∧
      Makes p t.kind t.literal := by
  by_cases number : t.kind = .number
  · obtain ⟨whole, fraction, value⟩ := made.numeral number
    obtain ⟨whole', fraction', spelled, formed, same⟩ := Number.spells_literal whole fraction
    have meaning : (Piece.numeral whole' fraction').meaning? = some (t.kind, t.literal) := by
      rw [number, value, ← same]
      rfl
    refine ⟨.numeral whole' fraction', formed, sense_of_made meaning (absurd number), ?_,
      makes_of_meaning formed meaning⟩
    unfold written
    rw [if_pos number, value]
    exact spelled.symm
  · obtain ⟨p, formed, meaning, text_eq⟩ := made
    refine ⟨p, formed, sense_of_made meaning fun _ => text_eq, ?_, makes_of_meaning formed meaning⟩
    unfold written
    rw [if_neg number, ← text_eq, String.toList_ofList]

end Token

/-- What may follow any token: a blank, or a mark that joins nothing before it. -/
def Loose (rest : List Char) : Prop :=
  ∀ c, rest.head? = some c → c = ' ' ∨ c = ')' ∨ c = ';' ∨ c = ','

namespace Piece

private theorem boundary_of_loose {test : Char → Bool} {rest : List Char} (loose : Loose rest)
    (stops : test ' ' = false ∧ test ')' = false ∧ test ';' = false ∧ test ',' = false) :
    Boundary test rest := by
  intro c head
  rcases loose c head with rfl | rfl | rfl | rfl
  · exact stops.1
  · exact stops.2.1
  · exact stops.2.2.1
  · exact stops.2.2.2

theorem joins_loose (text : List Char) : joins text ' ' = false ∧ joins text ')' = false ∧
    joins text ';' = false ∧ joins text ',' = false := by
  refine ⟨?_, ?_, ?_, ?_⟩ <;>
    · unfold joins
      split <;> first | rfl | (rename_i same; cases same)

/-- A piece that makes a usable token does not run into loose text. -/
theorem fits_of_loose {p : Piece} {kind : Kind} {literal : Value} (makes : Makes p kind literal)
    (usable : kind ≠ .error) {rest : List Char} (loose : Loose rest) : p.Fits rest := by
  cases makes with
  | mark sort => exact boundary_of_loose loose (joins_loose _)
  | name | keyword => exact boundary_of_loose loose (by decide)
  | numeral =>
    refine ⟨boundary_of_loose loose (by decide), fun _ d more same => ?_⟩
    -- no loose text starts with a point
    rcases loose '.' (by rw [same]; rfl) with dot | dot | dot | dot <;> cases dot
  | quoted => trivial
  | error => exact absurd rfl usable

end Piece

open Piece Token

/-- The text is cut into pieces that say what the tokens say, with the rest behind it. -/
def Writes (text : List Char) (tokens : List Token) (rest : List Char) : Prop :=
  ∃ pieces : List Piece, text = pieces.flatMap Piece.text ∧ Separated pieces rest ∧
    pieces.filterMap sense? = tokens.map sense

namespace Writes
variable {a b rest : List Char} {ts us : List Token} {t : Token}

theorem nil : Writes [] [] rest := ⟨[], rfl, trivial, rfl⟩

theorem append (first : Writes a ts (b ++ rest)) (second : Writes b us rest) :
    Writes (a ++ b) (ts ++ us) rest := by
  obtain ⟨ps, rfl, apart, said⟩ := first
  obtain ⟨qs, rfl, apart', said'⟩ := second
  refine ⟨ps ++ qs, List.flatMap_append.symm, separated_append.2 ⟨apart, apart'⟩, ?_⟩
  rw [List.filterMap_append, List.map_append, said, said']

theorem layout {c : Char} (blank : isBlank c = true) : Writes [c] [] rest :=
  ⟨[.blank c], rfl, ⟨blank, trivial, trivial⟩, rfl⟩

theorem token (made : t.Made) (usable : t.kind ≠ .error) (loose : Loose rest) :
    Writes t.written [t] rest := by
  obtain ⟨p, formed, said, text_eq, makes⟩ := made.piece
  refine ⟨[p], by simp [text_eq], ⟨formed, ?_, trivial⟩, by simp [said]⟩
  exact fits_of_loose makes usable loose

theorem mark (made : t.Made) (sort : t.kind.isMark = true)
    (apart : Boundary (joins t.kind.spelling.toList) rest) :
    Writes t.kind.spelling.toList [t] rest := by
  obtain ⟨p, formed, said, _, makes⟩ := made.piece
  have shape := makes.eq_mark sort
  subst shape
  exact ⟨[.mark t.kind], by simp [text], ⟨formed, apart, trivial⟩, by simp [said]⟩

end Writes

end Scriptlet
