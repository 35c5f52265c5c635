import Mathlib.Data.List.TakeWhile
import Scriptlet.Token.Piece

/-! What the pieces of a text are, without the order in which they are tried: a
piece has the form of its sort, and what follows it in the text would not make
it longer. A text is cut in exactly one such way, so a text that is put together
from pieces that keep to this is cut into them again. -/
namespace Scriptlet

def Kind.isMark : Kind → Bool
  | .leftParen | .rightParen | .leftBrace | .rightBrace | .comma | .minus | .plus | .semicolon
  | .slash | .star | .question | .colon | .bang | .bangEqual | .equal | .equalEqual | .greater
  | .greaterEqual | .less | .lessEqual => true
  | _ => false

namespace Piece

/-- Marks with a further character that makes another piece of them. -/
def joins : List Char → Char → Bool
  | ['!'], '=' | ['='], '=' | ['<'], '=' | ['>'], '=' => true
  | ['/'], '/' | ['/'], '*' | ['*'], '/' => true
  | _, _ => false

def isForeign (c : Char) : Bool :=
  (Kind.ofMark? c).isNone && !isBlank c && !c.isDigit && !isWordStart c && c != '"'

def WellFormed : Piece → Prop
  | blank c => isBlank c = true
  | lineComment body => ∀ c ∈ body, (c != '\n') = true
  | blockComment body => upToClose? (body ++ ['*', '/']) = some (body, [])
  | mark kind => kind.isMark = true
  | word letters => ∃ c more, letters = c :: more ∧ isWordStart c = true ∧
      ∀ d ∈ more, isWordRest d = true
  | numeral whole fraction => whole ≠ [] ∧ (∀ c ∈ whole, c.isDigit = true) ∧
      ∀ c ∈ fraction, c.isDigit = true
  | quoted content => ∀ c ∈ content, (c != '"') = true
  | unexpected c => isForeign c = true
  | strayClose => True
  | openQuote content => ∀ c ∈ content, (c != '"') = true
  | openComment body => upToClose? body = none

def Boundary (test : Char → Bool) (rest : List Char) : Prop :=
  ∀ c, rest.head? = some c → test c = false

/-- What follows does not belong to the piece. -/
def Fits : Piece → List Char → Prop
  | lineComment _, rest => Boundary (· != '\n') rest
  | mark kind, rest => Boundary (joins kind.spelling.toList) rest
  | word _, rest => Boundary isWordRest rest
  | numeral _ fraction, rest => Boundary Char.isDigit rest ∧
      (fraction = [] → ∀ d more, rest = '.' :: d :: more → d.isDigit = false)
  | openQuote _, rest | openComment _, rest => rest = []
  | blank _, _ | blockComment _, _ | quoted _, _ | unexpected _, _ | strayClose, _ => True

theorem takeWhile_boundary {test : Char → Bool} {body rest : List Char}
    (inside : ∀ c ∈ body, test c = true) (boundary : Boundary test rest) :
    (body ++ rest).takeWhile test = body := by
  rw [List.takeWhile_append_of_pos inside]
  cases rest with
  | nil => simp
  | cons c rest => simp [boundary c rfl]

private theorem dropWhile_boundary {test : Char → Bool} {body rest : List Char}
    (inside : ∀ c ∈ body, test c = true) (boundary : Boundary test rest) :
    (body ++ rest).dropWhile test = rest := by
  rw [List.dropWhile_append_of_pos inside]
  cases rest with
  | nil => rfl
  | cons c rest => simp [boundary c rfl]

private theorem boundary_dropWhile (test : Char → Bool) (source : List Char) :
    Boundary test (source.dropWhile test) := by
  intro c head
  have stopped := List.head?_dropWhile_not test source
  rw [head] at stopped
  simpa using stopped

section Scanning
variable {c : Char} {source rest : List Char}

theorem upToClose?_cons (apart : c = '*' → source.head? ≠ some '/') :
    upToClose? (c :: source) = (upToClose? source).map fun (body, rest) => (c :: body, rest) := by
  refine upToClose?.eq_3 c source fun rest star slash => ?_
  rw [slash] at apart
  exact apart star rfl

private theorem upToClose?_body {body : List Char}
    (found : upToClose? source = some (body, rest)) (more : List Char) :
    upToClose? (body ++ '*' :: '/' :: more) = some (body, more) := by
  fun_induction upToClose? source generalizing body with
  | case1 => cases found
  | case2 => cases found; rfl
  | case3 c source apart ih =>
    simp only [Option.map_eq_some_iff, Prod.mk.injEq, Prod.exists] at found
    obtain ⟨inner, after, earlier, rfl, rfl⟩ := found
    rw [List.cons_append, upToClose?, ih earlier]
    · rfl
    · intro tail star slash
      subst star
      have whole := upToClose?_append earlier
      cases inner with
      | nil => cases slash
      | cons d inner =>
        cases slash
        exact apart _ rfl whole

private theorem upToClose?_append_rest {body : List Char}
    (found : upToClose? source = some (body, rest)) (more : List Char) :
    upToClose? (source ++ more) = some (body, rest ++ more) := by
  rw [upToClose?_append found, List.append_assoc]
  exact upToClose?_body found (rest ++ more)

private theorem wellFormed_quoted {content : List Char}
    (found : upToQuote? source = some (content, rest)) : (quoted content).WellFormed := by
  unfold upToQuote? at found
  split at found
  · cases found
  · cases found
    intro c member
    exact List.mem_takeWhile_imp (p := (· != '"')) member

private theorem wellFormed_openQuote (none_found : upToQuote? source = none) :
    (openQuote source).WellFormed := by
  unfold upToQuote? at none_found
  split at none_found
  · rename_i dropped
    intro c member
    exact List.dropWhile_eq_nil_iff.1 dropped c member
  · cases none_found

theorem isMark_of_ofMark? {kind : Kind} (found : Kind.ofMark? c = some kind) :
    kind.isMark = true ∧ kind.spelling.toList = [c] := by
  unfold Kind.ofMark? at found
  split at found <;> first | (cases found; exact ⟨rfl, rfl⟩) | cases found

private theorem numeralFrom_fits (digit : c.isDigit = true) (source : List Char) :
    (numeralFrom c source).1.WellFormed ∧
      (numeralFrom c source).1.Fits (numeralFrom c source).2 := by
  have digits : ∀ d ∈ c :: source.takeWhile Char.isDigit, d.isDigit = true := by
    intro d member
    rcases List.mem_cons.1 member with rfl | later
    · exact digit
    · exact List.mem_takeWhile_imp later
  have stops := boundary_dropWhile Char.isDigit source
  unfold numeralFrom
  dsimp only
  split
  · rename_i d after dropped
    split
    · rename_i point
      refine ⟨⟨List.cons_ne_nil _ _, digits, ?_⟩, boundary_dropWhile _ _, nofun⟩
      intro e member
      rcases List.mem_cons.1 member with rfl | later
      · exact point
      · exact List.mem_takeWhile_imp later
    · rename_i no_digit
      rw [dropped] at stops
      refine ⟨⟨List.cons_ne_nil _ _, digits, nofun⟩, stops, fun _ e more same => ?_⟩
      cases same
      simpa using no_digit
  · rename_i apart
    refine ⟨⟨List.cons_ne_nil _ _, digits, nofun⟩, stops, fun _ e more same => ?_⟩
    exact absurd same (apart e more)

private theorem ofChar_fits {c : Char} {source : List Char} (quote : c ≠ '"')
    (single : Boundary (joins [c]) source) :
    (ofChar c source).1.WellFormed ∧ (ofChar c source).1.Fits (ofChar c source).2 := by
  unfold ofChar
  split
  · rename_i kind found
    obtain ⟨sort, spelling⟩ := isMark_of_ofMark? found
    refine ⟨sort, ?_⟩
    show Boundary (joins kind.spelling.toList) source
    rw [spelling]
    exact single
  · rename_i no_mark
    split
    · rename_i layout
      exact ⟨layout, trivial⟩
    · split
      · rename_i digit
        exact numeralFrom_fits digit source
      · split
        · rename_i letter
          exact ⟨⟨c, _, rfl, letter, fun d member => List.mem_takeWhile_imp member⟩,
            boundary_dropWhile _ _⟩
        · rename_i no_blank no_digit no_letter
          refine ⟨?_, trivial⟩
          show isForeign c = true
          simp [isForeign, no_mark, no_blank, no_digit, no_letter, quote]

private theorem first_fits (c : Char) (source : List Char) :
    (first c source).1.WellFormed ∧ (first c source).1.Fits (first c source).2 := by
  unfold first
  split
  · exact ⟨rfl, fun _ _ => rfl⟩
  · exact ⟨rfl, fun _ _ => rfl⟩
  · exact ⟨rfl, fun _ _ => rfl⟩
  · exact ⟨rfl, fun _ _ => rfl⟩
  · exact ⟨fun c member => List.mem_takeWhile_imp (p := (· != '\n')) member, boundary_dropWhile _ _⟩
  · split
    · rename_i found
      exact ⟨upToClose?_body found [], trivial⟩
    · rename_i none_found
      exact ⟨none_found, rfl⟩
  · exact ⟨trivial, trivial⟩
  · split
    · rename_i found
      exact ⟨wellFormed_quoted found, trivial⟩
    · rename_i none_found
      exact ⟨wellFormed_openQuote none_found, rfl⟩
  -- one character: all that would join it has had its turn above
  · rename_i quote bang equal less greater line block close
    refine ofChar_fits quote fun d head => ?_
    obtain ⟨more, rfl⟩ : ∃ more, source = d :: more := by
      cases source with
      | nil => cases head
      | cons e more => cases head; exact ⟨more, rfl⟩
    unfold joins
    split
    · exact (bang _ (by simp_all) rfl).elim
    · exact (equal _ (by simp_all) rfl).elim
    · exact (less _ (by simp_all) rfl).elim
    · exact (greater _ (by simp_all) rfl).elim
    · exact (line _ (by simp_all) rfl).elim
    · exact (block _ (by simp_all) rfl).elim
    · exact (close _ (by simp_all) rfl).elim
    · rfl

theorem first_eq_ofChar (quote : c ≠ '"') (single : Boundary (joins [c]) source) :
    first c source = ofChar c source := by
  unfold first
  split <;> first | cases single _ rfl | exact absurd rfl quote | rfl

private theorem ofMark?_eq_none (plain : c.isDigit = true ∨ isWordStart c = true ∨ isBlank c = true) :
    Kind.ofMark? c = none := by
  unfold Kind.ofMark?
  split <;> first | rfl | (revert plain; decide)

private theorem joins_eq_false (none_made : Kind.ofMark? c = none) (d : Char) : joins [c] d = false := by
  unfold joins
  split <;> first | rfl | (rename_i same; cases same; cases none_made)

private theorem first_of_no_mark (none_made : Kind.ofMark? c = none) (quote : c ≠ '"') :
    first c source =
      if isBlank c then (blank c, source)
      else if c.isDigit then numeralFrom c source
      else if isWordStart c then
        (word (c :: source.takeWhile isWordRest), source.dropWhile isWordRest)
      else (unexpected c, source) := by
  rw [first_eq_ofChar quote fun d _ => joins_eq_false none_made d, ofChar, none_made]

private theorem ne_quote (plain : c.isDigit = true ∨ isWordStart c = true ∨ isBlank c = true) :
    c ≠ '"' := by
  rintro rfl
  revert plain
  decide

private theorem not_blank (plain : c.isDigit = true ∨ isWordStart c = true) : isBlank c = false := by
  by_contra layout
  simp only [isBlank, Bool.not_eq_false, Bool.or_eq_true, beq_iff_eq] at layout
  rcases layout with ((rfl | rfl) | rfl) | rfl <;> revert plain <;> decide

theorem not_digit (letter : isWordStart c = true) : c.isDigit = false := by
  have first : ((c.isUpper || c.isLower) || c == '_') = true := letter
  rw [Bool.or_eq_true, Bool.or_eq_true, beq_iff_eq] at first
  have beyond : '9'.val < c.val := by
    rcases first with (upper | lower) | rfl
    · exact UInt32.lt_of_lt_of_le (by decide) (of_decide_eq_true upper).1
    · have from_a : 'a'.val ≤ c.val := of_decide_eq_true (Bool.and_eq_true_iff.1 lower).1
      exact UInt32.lt_of_lt_of_le (by decide) from_a
    · decide
  by_contra digit
  rw [Bool.not_eq_false] at digit
  have to_nine : c.val ≤ '9'.val := of_decide_eq_true (Bool.and_eq_true_iff.1 digit).2
  exact UInt32.not_le.2 beyond to_nine

private theorem upToQuote?_of_content {content : List Char} (inside : ∀ c ∈ content, (c != '"') = true) :
    upToQuote? (content ++ '"' :: rest) = some (content, rest) := by
  have stops : Boundary (· != '"') ('"' :: rest) := by
    intro c head
    cases head
    rfl
  unfold upToQuote?
  rw [dropWhile_boundary inside stops, takeWhile_boundary inside stops]

private theorem numeralFrom_text {whole fraction : List Char} {digit : Char}
    (digits : ∀ d ∈ digit :: whole, d.isDigit = true) (places : ∀ d ∈ fraction, d.isDigit = true)
    (fits : (numeral (digit :: whole) fraction).Fits rest) :
    ∃ more, (numeral (digit :: whole) fraction).text = digit :: more ∧
      numeralFrom digit (more ++ rest) = (numeral (digit :: whole) fraction, rest) := by
  have inside : ∀ d ∈ whole, d.isDigit = true := fun d member => digits d (.tail _ member)
  obtain ⟨stops, no_point⟩ := fits
  cases fraction with
  | nil =>
    refine ⟨whole, rfl, ?_⟩
    unfold numeralFrom
    simp only [dropWhile_boundary inside stops, takeWhile_boundary inside stops]
    split
    · rename_i d more
      rw [if_neg (by rw [no_point rfl d more rfl]; decide)]
    · rfl
  | cons d fraction =>
    refine ⟨whole ++ '.' :: d :: fraction, rfl, ?_⟩
    have point : Boundary Char.isDigit ('.' :: d :: (fraction ++ rest)) := by
      intro c head
      cases head
      rfl
    have later : ∀ e ∈ fraction, e.isDigit = true := fun e member => places e (.tail _ member)
    unfold numeralFrom
    simp only [List.append_assoc, List.cons_append, dropWhile_boundary inside point,
      takeWhile_boundary inside point, places d (.head _), if_true,
      dropWhile_boundary later stops, takeWhile_boundary later stops]

/-- A mark is a single character, or one that another character has joined. -/
theorem spelling_of_isMark {kind : Kind} (mark_kind : kind.isMark = true) :
    (∃ c, kind.spelling.toList = [c] ∧ Kind.ofMark? c = some kind ∧ c ≠ '"') ∨
      ∃ c, kind.spelling.toList = [c, '='] ∧ ∀ rest, first c ('=' :: rest) = (mark kind, rest) := by
  cases kind <;>
    first
    | exact .inl ⟨_, rfl, rfl, by decide⟩
    | exact .inr ⟨_, rfl, fun _ => rfl⟩
    | cases mark_kind

/-- A piece that has its form, before something that does not belong to it, is
the first piece. -/
theorem first_text {p : Piece} {rest : List Char} (formed : p.WellFormed) (fits : p.Fits rest)
    {c : Char} {more : List Char} (starts : p.text = c :: more) :
    first c (more ++ rest) = (p, rest) := by
  cases p with
  | blank d =>
    cases starts
    have plain : c.isDigit = true ∨ isWordStart c = true ∨ isBlank c = true := .inr (.inr formed)
    have layout : isBlank c = true := formed
    rw [first_of_no_mark (ofMark?_eq_none plain) (ne_quote plain), if_pos layout, List.nil_append]
  | lineComment body =>
    cases starts
    show (lineComment ((body ++ rest).takeWhile _), (body ++ rest).dropWhile _) = _
    rw [takeWhile_boundary formed fits, dropWhile_boundary formed fits]
  | blockComment body =>
    cases starts
    have found := upToClose?_append_rest formed rest
    simp only [first, List.cons_append, found]
    rfl
  | mark kind =>
    rcases spelling_of_isMark formed with ⟨d, spelling, found, quote⟩ | ⟨d, spelling, found⟩
    · have single : Boundary (joins [d]) rest := by rw [← spelling]; exact fits
      rw [text, spelling] at starts
      cases starts
      rw [List.nil_append, first_eq_ofChar quote single, ofChar, found]
    · rw [text, spelling] at starts
      cases starts
      exact found rest
  | word letters =>
    obtain ⟨d, body, rfl, letter, inside⟩ := formed
    cases starts
    have plain : c.isDigit = true ∨ isWordStart c = true ∨ isBlank c = true := .inr (.inl letter)
    rw [first_of_no_mark (ofMark?_eq_none plain) (ne_quote plain),
      if_neg (by rw [not_blank (.inr letter)]; decide), if_neg (by rw [not_digit letter]; decide),
      if_pos letter, takeWhile_boundary inside fits, dropWhile_boundary inside fits]
  | numeral whole fraction =>
    obtain ⟨some_digit, digits, places⟩ := formed
    cases whole with
    | nil => exact absurd rfl some_digit
    | cons digit whole =>
      obtain ⟨tail, same, found⟩ := numeralFrom_text digits places fits
      rw [same] at starts
      cases starts
      have first_digit := digits c (.head _)
      have plain : c.isDigit = true ∨ isWordStart c = true ∨ isBlank c = true := .inl first_digit
      rw [first_of_no_mark (ofMark?_eq_none plain) (ne_quote plain),
        if_neg (by rw [not_blank (.inl first_digit)]; decide), if_pos first_digit, found]
  | quoted content =>
    cases starts
    have found : upToQuote? (content ++ '"' :: rest) = some (content, rest) :=
      upToQuote?_of_content formed
    simp only [first, List.append_assoc, List.singleton_append, found]
  | unexpected d =>
    cases starts
    have foreign : isForeign c = true := formed
    simp only [isForeign, Bool.and_eq_true, Option.isNone_iff_eq_none, Bool.not_eq_true',
      bne_iff_ne] at foreign
    obtain ⟨⟨⟨⟨no_mark, no_blank⟩, no_digit⟩, no_letter⟩, no_quote⟩ := foreign
    rw [first_of_no_mark no_mark no_quote]
    simp [no_blank, no_digit, no_letter]
  | strayClose => cases starts; rfl
  | openQuote content =>
    cases starts
    cases fits
    have unfound : upToQuote? more = none := by
      unfold upToQuote?
      rw [List.dropWhile_eq_nil_iff.2 formed]
    simp only [first, List.append_nil, unfound]
  | openComment body =>
    cases starts
    cases fits
    have unfound : upToClose? body = none := formed
    simp only [first, List.append_nil, unfound]

theorem text_ne_nil {p : Piece} (formed : p.WellFormed) : p.text ≠ [] := by
  cases p with
  | mark kind =>
    intro empty
    rcases spelling_of_isMark formed with ⟨c, spelling, _⟩ | ⟨c, spelling, _⟩ <;>
      · rw [text, spelling] at empty
        cases empty
  | word letters =>
    obtain ⟨c, more, rfl, _⟩ := formed
    exact List.cons_ne_nil c more
  | numeral whole fraction =>
    obtain ⟨some_digit, _⟩ := formed
    cases fraction with
    | nil => exact some_digit
    | cons d fraction => exact fun empty => some_digit (List.append_eq_nil_iff.1 empty).1
  | blank | lineComment | blockComment | quoted | unexpected | strayClose | openQuote
  | openComment => exact List.cons_ne_nil _ _

theorem cut_text {p : Piece} (formed : p.WellFormed) (fits : p.Fits rest) :
    cut (p.text ++ rest) = p :: cut rest := by
  cases starts : p.text with
  | nil => exact absurd starts (text_ne_nil formed)
  | cons c more => rw [List.cons_append, cut_cons, first_text formed fits starts]

end Scanning

/-- Each piece has its form and does not run into the text after it. -/
def Separated : List Piece → List Char → Prop
  | [], _ => True
  | p :: more, rest => p.WellFormed ∧ p.Fits (more.flatMap text ++ rest) ∧ Separated more rest

theorem separated_append {first more : List Piece} {rest : List Char} :
    Separated (first ++ more) rest ↔
      Separated first (more.flatMap text ++ rest) ∧ Separated more rest := by
  induction first with
  | nil => simp [Separated]
  | cons p first ih =>
    simp only [List.cons_append, Separated, ih, List.flatMap_append, List.append_assoc, and_assoc]

theorem cut_flatMap {pieces : List Piece} {rest : List Char} (separated : Separated pieces rest) :
    cut (pieces.flatMap text ++ rest) = pieces ++ cut rest := by
  induction pieces with
  | nil => rfl
  | cons p more ih =>
    obtain ⟨formed, fits, later⟩ := separated
    rw [List.flatMap_cons, List.append_assoc, cut_text formed fits, ih later, List.cons_append]

theorem separated_cut (source : List Char) : Separated (cut source) [] := by
  -- on the length, as the first piece may have any number of characters
  induction n : source.length using Nat.strongRecOn generalizing source with
  | ind n ih =>
    cases source with
    | nil => rw [cut_nil]; trivial
    | cons c rest =>
      subst n
      have here := first_fits c rest
      rw [cut_cons]
      refine ⟨here.1, ?_, ih _ (first_shorter c rest) _ rfl⟩
      rw [flatMap_text_cut, List.append_nil]
      exact here.2

end Piece

end Scriptlet
