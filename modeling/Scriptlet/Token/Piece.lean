import Scriptlet.Token.Basic

/-! Pieces of a source text: marks, words, numerals, quoted texts, the layout
between them, and four kinds of error. Cutting a text into pieces looks at no
line numbers and loses nothing, the texts of the pieces follow each other in
the source. A comment runs to the end of its line, or to the first closing
mark after its opening one; a quoted text runs to the next quote. -/
namespace Scriptlet

inductive Piece
  | blank (c : Char)
  | lineComment (body : List Char)
  | blockComment (body : List Char)
  | mark (kind : Kind)
  | word (letters : List Char)
  | numeral (whole fraction : List Char)
  | quoted (content : List Char)
  | unexpected (c : Char)
  | strayClose
  | openQuote (content : List Char)
  | openComment (body : List Char)
  deriving DecidableEq

namespace Piece

def isBlank (c : Char) : Bool := c == ' ' || c == '\r' || c == '\t' || c == '\n'

def isWordStart (c : Char) : Bool := c.isAlpha || c == '_'

def isWordRest (c : Char) : Bool := isWordStart c || c.isDigit

def text : Piece → List Char
  | blank c => [c]
  | lineComment body => '/' :: '/' :: body
  | blockComment body => '/' :: '*' :: (body ++ ['*', '/'])
  | mark kind => kind.spelling.toList
  | word letters => letters
  | numeral whole [] => whole
  | numeral whole fraction => whole ++ '.' :: fraction
  | quoted content => '"' :: (content ++ ['"'])
  | unexpected c => [c]
  | strayClose => ['*', '/']
  | openQuote content => '"' :: content
  | openComment body => '/' :: '*' :: body

/-- The text up to the first closing mark of a comment, and the rest after it. -/
def upToClose? : List Char → Option (List Char × List Char)
  | [] => none
  | '*' :: '/' :: rest => some ([], rest)
  | c :: rest => (upToClose? rest).map fun (body, rest) => (c :: body, rest)

def upToQuote? (source : List Char) : Option (List Char × List Char) :=
  match source.dropWhile (· != '"') with
  | [] => none
  | _ :: rest => some (source.takeWhile (· != '"'), rest)

/-- The numeral that starts with a digit. A point belongs to it only if a digit
follows. -/
def numeralFrom (c : Char) (source : List Char) : Piece × List Char :=
  let whole := c :: source.takeWhile Char.isDigit
  match source.dropWhile Char.isDigit with
  | '.' :: d :: rest =>
    if d.isDigit then
      (.numeral whole (d :: rest.takeWhile Char.isDigit), rest.dropWhile Char.isDigit)
    else (.numeral whole [], '.' :: d :: rest)
  | rest => (.numeral whole [], rest)

/-- A piece that its first character decides. -/
def ofChar (c : Char) (rest : List Char) : Piece × List Char :=
  match Kind.ofMark? c with
  | some kind => (.mark kind, rest)
  | none =>
    if isBlank c then (.blank c, rest)
    else if c.isDigit then numeralFrom c rest
    else if isWordStart c then
      (.word (c :: rest.takeWhile isWordRest), rest.dropWhile isWordRest)
    else (.unexpected c, rest)

def first (c : Char) (rest : List Char) : Piece × List Char :=
  match c, rest with
  | '!', '=' :: rest => (.mark .bangEqual, rest)
  | '=', '=' :: rest => (.mark .equalEqual, rest)
  | '<', '=' :: rest => (.mark .lessEqual, rest)
  | '>', '=' :: rest => (.mark .greaterEqual, rest)
  | '/', '/' :: rest => (.lineComment (rest.takeWhile (· != '\n')), rest.dropWhile (· != '\n'))
  | '/', '*' :: rest =>
    match upToClose? rest with
    | some (body, rest) => (.blockComment body, rest)
    | none => (.openComment rest, [])
  | '*', '/' :: rest => (.strayClose, rest)
  | '"', rest =>
    match upToQuote? rest with
    | some (content, rest) => (.quoted content, rest)
    | none => (.openQuote rest, [])
  | c, rest => ofChar c rest

theorem upToClose?_append {source body rest : List Char}
    (found : upToClose? source = some (body, rest)) : source = body ++ '*' :: '/' :: rest := by
  fun_induction upToClose? source generalizing body with
  | case1 => simp at found
  | case2 => simp at found; obtain ⟨rfl, rfl⟩ := found; rfl
  | case3 c source _ ih =>
    simp only [Option.map_eq_some_iff, Prod.mk.injEq, Prod.exists] at found
    obtain ⟨inner, after, earlier, rfl, rfl⟩ := found
    rw [ih earlier]; rfl

private theorem upToQuote?_append {source content rest : List Char}
    (found : upToQuote? source = some (content, rest)) : source = content ++ '"' :: rest := by
  unfold upToQuote? at found
  split at found
  · simp at found
  · rename_i q after dropped
    simp only [Option.some.injEq, Prod.mk.injEq] at found
    obtain ⟨rfl, rfl⟩ := found
    have stop : (q != '"') = false := by
      have head := List.head?_dropWhile_not (· != '"') source
      rw [dropped] at head
      simpa using head
    have quote : q = '"' := by simpa using stop
    subst quote
    rw [← dropped, List.takeWhile_append_dropWhile]

private theorem text_numeralFrom (c : Char) (source : List Char) :
    (numeralFrom c source).1.text ++ (numeralFrom c source).2 = c :: source := by
  have whole := List.takeWhile_append_dropWhile (p := Char.isDigit) (l := source)
  unfold numeralFrom
  dsimp only
  split
  · rename_i d rest dropped
    rw [dropped] at whole
    split
    · simp [text, whole, List.takeWhile_append_dropWhile]
    · simp [text, whole]
  · simp [text, whole]

private theorem text_ofMark {c : Char} {kind : Kind} (found : Kind.ofMark? c = some kind) :
    kind.spelling.toList = [c] := by
  unfold Kind.ofMark? at found
  split at found <;> first | (cases found; rfl) | simp at found

private theorem text_ofChar (c : Char) (rest : List Char) :
    (ofChar c rest).1.text ++ (ofChar c rest).2 = c :: rest := by
  unfold ofChar
  split
  · rename_i kind found
    simp [text, text_ofMark found]
  · split
    · rfl
    · split
      · exact text_numeralFrom c rest
      · split
        · simp [text, List.takeWhile_append_dropWhile]
        · rfl

theorem text_first (c : Char) (rest : List Char) :
    (first c rest).1.text ++ (first c rest).2 = c :: rest := by
  unfold first
  split
  · rfl
  · rfl
  · rfl
  · rfl
  · simp [text, List.takeWhile_append_dropWhile]
  · split
    · rename_i found
      simp [text, upToClose?_append found]
    · simp [text]
  · rfl
  · split
    · rename_i found
      simp [text, upToQuote?_append found]
    · simp [text]
  · exact text_ofChar _ _

private theorem text_ofChar_ne (c : Char) (rest : List Char) :
    (ofChar c rest).1.text ≠ [] := by
  unfold ofChar
  split
  · rename_i kind found
    simp [text, text_ofMark found]
  · split
    · simp [text]
    · split
      · unfold numeralFrom
        dsimp only
        split
        · split <;> simp [text]
        · simp [text]
      · split <;> simp [text]

theorem text_first_ne (c : Char) (rest : List Char) : (first c rest).1.text ≠ [] := by
  unfold first
  split
  · simp [text, Kind.spelling]
  · simp [text, Kind.spelling]
  · simp [text, Kind.spelling]
  · simp [text, Kind.spelling]
  · simp [text]
  · split <;> simp [text]
  · simp [text]
  · split <;> simp [text]
  · exact text_ofChar_ne _ _

theorem first_shorter (c : Char) (rest : List Char) :
    (first c rest).2.length < (c :: rest).length := by
  have whole := congrArg List.length (text_first c rest)
  have some_text := List.length_pos_iff.2 (text_first_ne c rest)
  rw [List.length_append] at whole
  omega

private def cutOnto (earlier : List Piece) : List Char → List Piece
  | [] => earlier.reverse
  | c :: rest => cutOnto ((first c rest).1 :: earlier) (first c rest).2
termination_by source => source.length
decreasing_by exact first_shorter c rest

def cut (source : List Char) : List Piece := cutOnto [] source

private theorem cutOnto_eq (earlier : List Piece) (source : List Char) :
    cutOnto earlier source = earlier.reverse ++ cut source := by
  unfold cut
  suffices every : ∀ n, ∀ source : List Char, source.length ≤ n → ∀ earlier,
      cutOnto earlier source = earlier.reverse ++ cutOnto [] source from
    every source.length source (Nat.le_refl _) earlier
  intro n
  induction n with
  | zero =>
    intro source short earlier
    rw [List.eq_nil_of_length_eq_zero (Nat.le_zero.1 short)]
    simp [cutOnto]
  | succ n ih =>
    intro source short earlier
    cases source with
    | nil => simp [cutOnto]
    | cons c rest =>
      have shorter := first_shorter c rest
      rw [cutOnto, ih _ (by omega), cutOnto, ih _ (by omega) [(first c rest).1]]
      simp

@[simp] theorem cut_nil : cut [] = [] := by simp [cut, cutOnto]

theorem cut_cons (c : Char) (rest : List Char) :
    cut (c :: rest) = (first c rest).1 :: cut (first c rest).2 := by
  rw [cut, cutOnto, cutOnto_eq]; rfl

theorem flatMap_text_cut (source : List Char) : (cut source).flatMap text = source := by
  induction n : source.length using Nat.strongRecOn generalizing source with
  | ind n ih =>
    cases source with
    | nil => simp
    | cons c rest =>
      subst n
      rw [cut_cons, List.flatMap_cons, ih _ (first_shorter c rest) _ rfl, text_first]

end Piece

end Scriptlet
