import Scriptlet.Proofs.Token.Lexical

/-! Writing tokens out with layout around them. A layout that ends by itself, all its
comments being closed, can stand before any text. One that starts with a blank also
ends every token before it, so the scanner finds the tokens that were written and no
others, whatever the comments say. -/
namespace Scriptlet

/-- A token whose text stands by itself for its kind and its value. -/
structure Token.Valid (t : Token) : Prop where
  usable : t.kind ≠ .error
  lexeme : Lexical.Lexeme t.kind t.literal t.lexeme.toList []

namespace Lexical
open Token Piece

/-- Layout that ends by itself: blanks, comments up to the end of their line and with
it, and closed comments. -/
inductive Spacing : List Char → Prop
  | nil : Spacing []
  | blank {c gap} (space : c ∈ [' ', '\r', '\t', '\n']) (more : Spacing gap) : Spacing (c :: gap)
  | line {body gap} (inside : '\n' ∉ body) (more : Spacing gap) :
      Spacing ('/' :: '/' :: (body ++ '\n' :: gap))
  | block {body gap} (inside : Unclosed body) (more : Spacing gap) :
      Spacing ('/' :: '*' :: (body ++ '*' :: '/' :: gap))

def Breaks (rest : List Char) : Prop := ∀ c, rest.head? = some c → c ∈ [' ', '\r', '\t', '\n']

def written : List Char → List (Token × List Char) → List Char
  | before, [] => before
  | before, (t, gap) :: more => before ++ (t.lexeme.toList ++ written gap more)

/-- The layouts behind the tokens: each ends by itself and starts with a blank, and
only the last one may be empty. -/
def Spaced : List (Token × List Char) → Prop
  | [] => True
  | (_, gap) :: more => Spacing gap ∧ Breaks gap ∧ (more ≠ [] → gap ≠ []) ∧ Spaced more

def placed (line : Int) : List Char → List (Token × List Char) → List Token
  | before, [] => [.eof (line + before.count '\n')]
  | before, (t, gap) :: more =>
    { t with line := line + before.count '\n' + descent t.kind t.lexeme.toList } ::
      placed (line + (before ++ t.lexeme.toList).count '\n') gap more

theorem Spacing.layout {gap : List Char} (spacing : Spacing gap) (rest : List Char) :
    Layout gap rest := by
  induction spacing with
  | nil => exact .nil
  | blank space _ ih => exact .blank space ih
  | @line body gap inside _ ih =>
    -- the line break that ends the comment is a blank behind it
    have ends : Ends (· ≠ '\n') ('\n' :: gap ++ rest) := by
      intro c head
      cases head
      exact not_not_intro rfl
    exact .line inside ends (.blank (by decide) ih)
  | block inside _ ih => exact .block inside ih

theorem Breaks.ends {rest : List Char} (breaks : Breaks rest) {test : Char → Prop}
    (apart : ∀ c ∈ [' ', '\r', '\t', '\n'], ¬test c) : Ends test rest :=
  fun c head => apart c (breaks c head)

private theorem forall_blank {test : Char → Prop} (space : test ' ') (carriage : test '\r')
    (tab : test '\t') (line : test '\n') : ∀ c ∈ [' ', '\r', '\t', '\n'], test c := by
  simp only [List.forall_mem_cons]
  exact ⟨space, carriage, tab, line, List.forall_mem_nil _⟩

private theorem not_mem_pairs {text : List Char} {c : Char} (space : c ∈ [' ', '\r', '\t', '\n']) :
    text ++ [c] ∉ pairs := by
  intro pair
  have last : ∀ p ∈ pairs, p.getLast?.any (· ∈ [' ', '\r', '\t', '\n']) = false := by decide
  have apart := last _ pair
  rw [List.getLast?_concat, Option.any_some, decide_eq_false_iff_not] at apart
  exact apart space

theorem Lexeme.before {kind : Kind} {literal : Value} {text rest : List Char}
    (lexeme : Lexeme kind literal text []) (usable : kind ≠ .error) (breaks : Breaks rest) :
    Lexeme kind literal text rest := by
  have outside_word : ∀ c ∈ [' ', '\r', '\t', '\n'], ¬InWord c := by
    unfold InWord
    exact forall_blank (by decide) (by decide) (by decide) (by decide)
  have no_digit : ∀ c ∈ [' ', '\r', '\t', '\n'], ¬c.isDigit = true :=
    forall_blank (by decide) (by decide) (by decide) (by decide)
  cases lexeme with
  | mark sort => exact .mark sort (breaks.ends fun c space => not_mem_pairs space)
  | keyword member => exact .keyword member (breaks.ends outside_word)
  | name letter inside unreserved => exact .name letter inside unreserved (breaks.ends outside_word)
  | whole some_digit inside _ _ nearest =>
    refine .whole some_digit inside (breaks.ends no_digit) (fun d more same => ?_) nearest
    have point : '.' ∈ [' ', '\r', '\t', '\n'] := breaks '.' (by rw [same]; rfl)
    exact absurd point (by decide)
  | decimal some_digit some_place digits places _ nearest =>
    exact .decimal some_digit some_place digits places (breaks.ends no_digit) nearest
  | quoted inside => exact .quoted inside
  | unexpected | strayClose | openQuote | openComment => exact absurd rfl usable

private theorem breaks_written {gap : List Char} {more : List (Token × List Char)} (breaks : Breaks gap)
    (some_gap : more ≠ [] → gap ≠ []) : Breaks (written gap more) := by
  cases more with
  | nil => exact breaks
  | cons item more =>
    obtain ⟨c, gap, rfl⟩ := List.exists_cons_of_ne_nil (some_gap (List.cons_ne_nil item more))
    exact breaks

private theorem lexed_written {before : List Char} {items : List (Token × List Char)}
    (layout : Spacing before) (valid : ∀ item ∈ items, item.1.Valid) (spaced : Spaced items)
    (line : Int) : Lexed line (written before items) (placed line before items) := by
  induction items generalizing before line with
  | nil => exact .finish (layout.layout [])
  | cons item more ih =>
    obtain ⟨t, gap⟩ := item
    obtain ⟨spacing, breaks, some_gap, later⟩ := spaced
    obtain ⟨here, others⟩ := List.forall_mem_cons.1 valid
    have lexeme := here.lexeme.before here.usable (breaks_written breaks some_gap)
    exact .token (layout.layout _) lexeme String.ofList_toList.symm rfl (ih spacing others later _)

private theorem map_relined_placed (line : Int) (before : List Char) (items : List (Token × List Char)) :
    (placed line before items).map (relined fun _ => 0) =
      items.map (fun item => relined (fun _ => 0) item.1) ++ [.eof 0] := by
  induction items generalizing line before with
  | nil => rfl
  | cons item more ih =>
    rw [placed, List.map_cons, ih, List.map_cons, List.cons_append]
    rfl

/-- Scanning gives the written tokens back, in their order and followed by the one of
kind eof: their kinds, texts and values, and only their lines are those of the text. -/
theorem scan_written (before : List Char) (items : List (Token × List Char))
    (layout : Spacing before) (valid : ∀ item ∈ items, item.1.Valid) (spaced : Spaced items) :
    (scan (String.ofList (written before items))).map (relined fun _ => 0) =
      items.map (fun item => relined (fun _ => 0) item.1) ++ [.eof 0] := by
  have found : placed 1 before items = scan (String.ofList (written before items)) := by
    rw [scan, String.toList_ofList]
    exact eq_of_lexed (lexed_written layout valid spaced 1)
  rw [← found]
  exact map_relined_placed 1 before items

/-- A keyword, a name, a sign, a quoted text that looks like a comment, and a semicolon. -/
def commented : List (Token × List Char) :=
  [(⟨.varWord, "var", 1, .nil⟩, [' ']),
    (⟨.identifier, "a", 1, .nil⟩, [' ', '/', '/', '"', '/', '*', '\n']),
    (⟨.equal, "=", 2, .nil⟩, [' ']), (⟨.string, "\"/*b\"", 2, .text "/*b"⟩, ['\t']),
    (⟨.semicolon, ";", 2, .nil⟩, [])]

/-- A closed comment with a quote in it before the first token, and a comment up to the
end of its line behind it. -/
theorem scan_written_commented :
    written ['/', '*', '"', '*', '*', '/'] commented =
        "/*\"**/var a //\"/*\n= \"/*b\"\t;".toList ∧
      (scan (String.ofList (written ['/', '*', '"', '*', '*', '/'] commented))).map
          (relined fun _ => 0) =
        commented.map (fun item => relined (fun _ => 0) item.1) ++ [.eof 0] := by
  have ends {test : Char → Prop} : Ends test [] := nofun
  have blank {c : Char} (space : c ∈ [' ', '\r', '\t', '\n']) (more : List Char) :
      Breaks (c :: more) := by
    intro d head
    cases head
    exact space
  have comment : Spacing ('/' :: '*' :: (['"', '*'] ++ '*' :: '/' :: [])) :=
    .block (by unfold Unclosed; decide) .nil
  have note : Spacing ('/' :: '/' :: (['"', '/', '*'] ++ '\n' :: [])) := .line (by decide) .nil
  have quoted : Lexeme .string (.text (String.ofList ['/', '*', 'b']))
      ('"' :: (['/', '*', 'b'] ++ ['"'])) [] := .quoted (by decide)
  have keyword : Lexeme .varWord .nil "var".toList [] := .keyword (by decide) ends
  refine ⟨by decide, scan_written _ commented comment ?_ ?_⟩
  · unfold commented
    simp only [List.forall_mem_cons]
    exact ⟨⟨by decide, keyword⟩, ⟨by decide, .name (.inl rfl) nofun (by decide) ends⟩,
      ⟨by decide, .mark rfl ends⟩, ⟨by decide, quoted⟩, ⟨by decide, .mark rfl ends⟩,
      List.forall_mem_nil _⟩
  · exact ⟨.blank (by decide) .nil, blank (by decide) _, nofun,
      .blank (by decide) note, blank (by decide) _, nofun,
      .blank (by decide) .nil, blank (by decide) _, nofun,
      .blank (by decide) .nil, blank (by decide) _, nofun, .nil, nofun, nofun, trivial⟩

end Lexical

end Scriptlet
