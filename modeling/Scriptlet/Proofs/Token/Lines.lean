import Scriptlet.Proofs.Token.Meaning

/-! Tokens and the lines they are on. Where the tokens of a text start on a later
line they are the same tokens, moved down by so many lines. A line break between
two texts keeps them apart, unless the first one ends inside a quoted text or a
comment: the tokens are then those of the first text and, moved down, those of
the second. -/
namespace Scriptlet

namespace Token

def relined (f : Int → Int) (t : Token) : Token := { t with line := f t.line }

/-- The tokens of pieces that start on the given line, without the final one. -/
def spoken (line : Int) : List Piece → List Token
  | [] => []
  | p :: more => (p.token? line).toList ++ spoken (line + p.newlines) more

end Token

namespace Piece

/-- Lines that end inside the pieces. -/
def lines (pieces : List Piece) : Nat := (pieces.flatMap text).count '\n'

theorem lines_cons (p : Piece) (more : List Piece) :
    lines (p :: more) = p.newlines + lines more := by
  simp [lines, newlines]

private theorem lines_cut (source : List Char) : lines (cut source) = source.count '\n' := by
  rw [lines, flatMap_text_cut]

def isOpen : Piece → Bool
  | openQuote _ | openComment _ => true
  | _ => false

private theorem boundary_newline {test : Char → Bool} {rest : List Char} (boundary : Boundary test rest)
    (newline : test '\n' = false) (more : List Char) : Boundary test (rest ++ '\n' :: more) := by
  cases rest with
  | nil =>
    intro c head
    cases head
    exact newline
  | cons d rest => exact boundary

theorem Fits.newline {p : Piece} {rest : List Char} (fits : p.Fits rest) (closed : p.isOpen = false)
    (more : List Char) : p.Fits (rest ++ '\n' :: more) := by
  cases p with
  | lineComment body => exact boundary_newline fits rfl more
  | mark kind =>
    refine boundary_newline fits ?_ more
    unfold joins
    split <;> first | rfl | (rename_i same; cases same)
  | word letters => exact boundary_newline fits rfl more
  | numeral whole fraction =>
    refine ⟨boundary_newline fits.1 rfl more, fun no_fraction d later same => ?_⟩
    cases rest with
    | nil => cases same
    | cons c rest =>
      cases rest with
      | nil => cases same; rfl
      | cons e rest =>
        cases same
        exact fits.2 no_fraction d rest rfl
  | openQuote | openComment => cases closed
  | blank | blockComment | quoted | unexpected | strayClose => trivial

theorem Separated.newline {pieces : List Piece} {rest : List Char}
    (separated : Separated pieces rest) (closed : ∀ p ∈ pieces, p.isOpen = false)
    (more : List Char) :
    Separated pieces (rest ++ '\n' :: more) := by
  induction pieces with
  | nil => trivial
  | cons p pieces ih =>
    obtain ⟨formed, fits, later⟩ := separated
    refine ⟨formed, ?_, ih later fun q member => closed q (.tail _ member)⟩
    rw [← List.append_assoc]
    exact fits.newline (closed p (.head _)) more

theorem Separated.formed {pieces : List Piece} {rest : List Char}
    (separated : Separated pieces rest) : ∀ p ∈ pieces, p.WellFormed := by
  induction pieces with
  | nil => nofun
  | cons p more ih =>
    intro q member
    rcases List.mem_cons.1 member with rfl | later
    · exact separated.1
    · exact ih separated.2.2 q later

private theorem cut_newline {first : List Char} (closed : ∀ p ∈ cut first, p.isOpen = false)
    (second : List Char) :
    cut (first ++ '\n' :: second) = cut first ++ blank '\n' :: cut second := by
  have separated := (separated_cut first).newline closed second
  have whole := cut_flatMap separated
  rw [flatMap_text_cut, List.nil_append] at whole
  rw [whole]
  exact congrArg _ (cut_text (p := blank '\n') rfl trivial)

end Piece

namespace Token
open Piece

theorem ofPieces_eq (line : Int) (pieces : List Piece) :
    ofPieces line pieces = spoken line pieces ++ [eof (line + lines pieces)] := by
  induction pieces generalizing line with
  | nil => simp [spoken, lines]
  | cons p more ih =>
    rw [ofPieces_cons, ih, spoken, List.append_assoc, lines_cons]
    congr 4
    push_cast
    omega

theorem spoken_append (line : Int) (first second : List Piece) :
    spoken line (first ++ second) = spoken line first ++ spoken (line + lines first) second := by
  induction first generalizing line with
  | nil => simp [spoken, lines]
  | cons p first ih =>
    rw [List.cons_append, spoken, spoken, ih, List.append_assoc, lines_cons]
    congr 3
    push_cast
    omega

theorem kind_of_token? {line : Int} {p : Piece} {t : Token} (found : p.token? line = some t) :
    p.meaning? = some (t.kind, t.literal) := by
  unfold Piece.token? at found
  obtain ⟨⟨kind, literal⟩, meaning, rfl⟩ := Option.map_eq_some_iff.1 found
  exact meaning

theorem mem_spoken {line : Int} {pieces : List Piece} {t : Token}
    (member : t ∈ spoken line pieces) :
    ∃ p ∈ pieces, p.meaning? = some (t.kind, t.literal) := by
  induction pieces generalizing line with
  | nil => cases member
  | cons p more ih =>
    rcases List.mem_append.1 member with here | later
    · exact ⟨p, .head _, kind_of_token? (Option.mem_toList.1 here)⟩
    · obtain ⟨q, among, meaning⟩ := ih later
      exact ⟨q, .tail _ among, meaning⟩

private theorem token?_relined (line by_ : Int) (p : Piece) :
    p.token? (line + by_) = (p.token? line).map (relined (· + by_)) := by
  unfold Piece.token?
  cases p.meaning? with
  | none => rfl
  | some meaning =>
    simp only [Option.map_some, relined]
    congr 2
    unfold tokenLine
    split
    · rfl
    · omega

private theorem spoken_relined (line by_ : Int) (pieces : List Piece) :
    spoken (line + by_) pieces = (spoken line pieces).map (relined (· + by_)) := by
  induction pieces generalizing line with
  | nil => rfl
  | cons p more ih =>
    rw [spoken, spoken, List.map_append, ← ih, token?_relined, Int.add_right_comm]
    congr 1
    cases p.token? line <;> rfl

theorem scan_eq (source : String) :
    scan source = spoken 1 (cut source.toList) ++ [eof (1 + source.toList.count '\n')] := by
  rw [scan, ofPieces_eq, lines_cut]

theorem ne_eof_of_spoken {line : Int} {source : List Char} {t : Token}
    (member : t ∈ spoken line (cut source)) : t.kind ≠ .eof := by
  obtain ⟨p, among, meaning⟩ := mem_spoken member
  exact kind_ne_eof ((separated_cut source).formed p among) meaning

theorem takeWhile_scan (source : String) :
    (scan source).takeWhile (·.kind != .eof) = spoken 1 (cut source.toList) := by
  rw [scan_eq, List.takeWhile_append_of_pos fun t member => bne_iff_ne.2 (ne_eof_of_spoken member)]
  simp [eof]

theorem closed_of_spoken {line : Int} {pieces : List Piece}
    (usable : ∀ t ∈ spoken line pieces, t.kind ≠ .error) : ∀ p ∈ pieces, p.isOpen = false := by
  induction pieces generalizing line with
  | nil => nofun
  | cons p more ih =>
    intro q member
    rcases List.mem_cons.1 member with rfl | later
    · cases q with
      | openQuote | openComment =>
        exact absurd rfl (usable _ (List.mem_append_left _ (Option.mem_toList.2 rfl)))
      | blank | lineComment | blockComment | mark | word | numeral | quoted | unexpected
      | strayClose => rfl
    · exact ih (fun t inside => usable t (List.mem_append_right _ inside)) q later

def below (source : String) (line : Int) : Int := line + (1 + source.toList.count '\n')

theorem spoken_newline {first : String} (closed : ∀ p ∈ cut first.toList, p.isOpen = false)
    (second : String) :
    spoken 1 (cut (first ++ "\n" ++ second).toList) =
      spoken 1 (cut first.toList) ++
        (spoken 1 (cut second.toList)).map (relined (below first)) := by
  have joined : (first ++ "\n" ++ second).toList = first.toList ++ '\n' :: second.toList := by simp
  have down : (1 : Int) + lines (cut first.toList) + (blank '\n').newlines =
      1 + (1 + first.toList.count '\n') := by
    rw [lines_cut]
    have one_line : (blank '\n').newlines = 1 := rfl
    rw [one_line]
    omega
  rw [joined, cut_newline closed, spoken_append, spoken, down, spoken_relined]
  rfl

private theorem ofPieces_relined (line by_ : Int) (pieces : List Piece) :
    ofPieces (line + by_) pieces = (ofPieces line pieces).map (relined (· + by_)) := by
  rw [ofPieces_eq, ofPieces_eq, spoken_relined, List.map_append, Int.add_right_comm]
  rfl

private theorem ofPieces_below (k : Nat) (line : Int) (text : List Char) :
    ofPieces line (cut (List.replicate k '\n' ++ text)) = ofPieces (line + k) (cut text) := by
  induction k generalizing line with
  | zero => simp
  | succ k ih =>
    have broken : cut ('\n' :: (List.replicate k '\n' ++ text)) =
        blank '\n' :: cut (List.replicate k '\n' ++ text) := cut_text (p := blank '\n') rfl trivial
    have one_line : (blank '\n').newlines = 1 := rfl
    rw [List.replicate_succ, List.cons_append, broken, ofPieces_cons, ih, one_line, Int.add_assoc,
      Int.add_comm (1 : Nat)]
    rfl

def lowered (k : Nat) (source : String) : String := String.ofList (List.replicate k '\n') ++ source

theorem scan_lowered (k : Nat) (source : String) :
    scan (lowered k source) = (scan source).map (relined (· + k)) := by
  unfold scan lowered
  rw [String.toList_append, String.toList_ofList, ofPieces_below, ofPieces_relined]

end Token

end Scriptlet
