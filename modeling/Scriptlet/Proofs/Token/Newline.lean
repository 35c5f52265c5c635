import Scriptlet.Proofs.Token.Lines

/-! A line break between any two texts. Every piece of the first one that can end ends there,
whatever the scanner looks at behind it, so the tokens of the whole are those of the first
text and, further down, those of the second. A quoted text or a comment that the first one
leaves open does not end there: it takes the line break in, and the tokens are others. -/
namespace Scriptlet

namespace Piece

private theorem Separated.open_last {pieces : List Piece} (separated : Separated pieces []) {p : Piece}
    (member : p ∈ pieces) (unclosed : p.isOpen = true) :
    ∃ init, pieces = init ++ [p] ∧ ∀ q ∈ init, q.isOpen = false := by
  induction pieces with
  | nil => cases member
  | cons q more ih =>
    obtain ⟨_, fits, later⟩ := separated
    cases here : q.isOpen with
    | true =>
      have nothing : more.flatMap text ++ [] = [] := by
        cases q with
        | openQuote | openComment => exact fits
        | blank | lineComment | blockComment | mark | word | numeral | quoted | unexpected
        | strayClose => cases here
      have alone : more = [] := by
        cases more with
        | nil => rfl
        | cons r more =>
          simp only [List.flatMap_cons, List.append_nil, List.append_eq_nil_iff] at nothing
          exact absurd nothing.1 (text_ne_nil later.1)
      subst alone
      exact ⟨[], by rw [List.mem_singleton.1 member, List.nil_append], nofun⟩
    | false =>
      rcases List.mem_cons.1 member with rfl | among
      · rw [here] at unclosed
        cases unclosed
      · obtain ⟨init, rfl, closed⟩ := ih later among
        exact ⟨q :: init, rfl, List.forall_mem_cons.2 ⟨here, closed⟩⟩

/-- A closing mark that comes behind a line break, but not before it, is found behind it. -/
private theorem upToClose?_newline {body : List Char} (unclosed : upToClose? body = none)
    {rest inside after : List Char}
    (found : upToClose? (body ++ '\n' :: rest) = some (inside, after)) :
    ∃ more, inside = body ++ '\n' :: more := by
  fun_induction upToClose? body generalizing inside after with
  | case1 =>
    have apart : '\n' = '*' → rest.head? ≠ some '/' := fun star => absurd star (by decide)
    rw [List.nil_append, upToClose?_cons apart, Option.map_eq_some_iff] at found
    obtain ⟨⟨inner, _⟩, _, same⟩ := found
    cases same
    exact ⟨inner, rfl⟩
  | case2 => cases unclosed
  | case3 c body apart ih =>
    have goes_on : c = '*' → (body ++ '\n' :: rest).head? ≠ some '/' := by
      intro star slash
      cases body with
      | nil => cases slash
      | cons d body =>
        cases slash
        exact apart body star rfl
    rw [List.cons_append, upToClose?_cons goes_on, Option.map_eq_some_iff] at found
    obtain ⟨⟨inner, _⟩, further, same⟩ := found
    cases same
    obtain ⟨more, rfl⟩ := ih (Option.map_eq_none_iff.1 unclosed) further
    exact ⟨more, rfl⟩

private theorem cut_newline_open {source : List Char} {init : List Piece} {p : Piece}
    (pieces : cut source = init ++ [p]) (closed : ∀ q ∈ init, q.isOpen = false)
    (more : List Char) :
    cut (source ++ '\n' :: more) = init ++ cut (p.text ++ '\n' :: more) := by
  have separated := separated_cut source
  rw [pieces, separated_append] at separated
  have whole := cut_flatMap (separated.1.newline closed more)
  rw [← flatMap_text_cut source, pieces]
  simpa using whole

end Piece

namespace Token
open Piece

def Unterminated (t : Token) : Prop :=
  t.kind = .error ∧
    (t.literal = .text "Unterminated string" ∨ t.literal = .text "Unterminated block comment")

private theorem unterminated_of_isOpen {p : Piece} (unclosed : p.isOpen = true) (line : Int) :
    ∃ t, p.token? line = some t ∧ t.Unterminated := by
  cases p with
  | openQuote => exact ⟨_, rfl, rfl, .inl rfl⟩
  | openComment => exact ⟨_, rfl, rfl, .inr rfl⟩
  | blank | lineComment | blockComment | mark | word | numeral | quoted | unexpected
  | strayClose => cases unclosed

private theorem isOpen_of_unterminated {t : Token} (unterminated : t.Unterminated) {p : Piece}
    (meaning : p.meaning? = some (t.kind, t.literal)) : p.isOpen = true := by
  obtain ⟨kind, literal⟩ := unterminated
  rw [kind] at meaning
  cases p with
  | openQuote | openComment => rfl
  | blank | lineComment | blockComment | quoted | numeral => cases meaning
  | mark | word =>
    obtain ⟨_, nothing⟩ := Prod.mk.inj (Option.some.inj meaning)
    rw [← nothing] at literal
    simp at literal
  | unexpected c =>
    obtain ⟨_, same⟩ := Prod.mk.inj (Option.some.inj meaning)
    rw [← same] at literal
    simp only [Value.text.injEq, String.ext_iff, String.toList_append] at literal
    simp at literal
  | strayClose =>
    obtain ⟨_, same⟩ := Prod.mk.inj (Option.some.inj meaning)
    rw [← same] at literal
    revert literal
    decide

theorem ofPieces_line_le {line : Int} {pieces : List Piece} {t : Token}
    (member : t ∈ ofPieces line pieces) : line ≤ t.line := by
  induction pieces generalizing line with
  | nil => exact Int.le_of_eq (congrArg Token.line (List.mem_singleton.1 member)).symm
  | cons p more ih =>
    rw [ofPieces_cons] at member
    rcases List.mem_append.1 member with here | later
    · obtain ⟨⟨kind, literal⟩, _, rfl⟩ := Option.map_eq_some_iff.1 (Option.mem_toList.1 here)
      show line ≤ p.tokenLine line
      unfold tokenLine
      split <;> omega
    · have below := ih later
      omega

private theorem ofPieces_append (line : Int) (first second : List Piece) :
    ofPieces line (first ++ second) =
      spoken line first ++ ofPieces (line + lines first) second := by
  have all : lines (first ++ second) = lines first + lines second := by simp [lines]
  rw [ofPieces_eq, ofPieces_eq, spoken_append, List.append_assoc, all, Int.natCast_add,
    Int.add_assoc]

private theorem ofList_newline_ne (letters more : List Char) :
    String.ofList (letters ++ '\n' :: more) ≠ String.ofList letters := by
  intro same
  have lengths := congrArg (fun text : String => text.toList.length) same
  simp only [String.toList_ofList, List.length_append, List.length_cons] at lengths
  omega

/-- Behind an open piece a line break is a part of it, and the token is another one. -/
private theorem head?_ofPieces_open {p : Piece} (unclosed : p.isOpen = true) (formed : p.WellFormed)
    (line : Int) (more : List Char) :
    (ofPieces line (cut (p.text ++ '\n' :: more))).head? ≠ p.token? line := by
  intro same
  cases p with
  | openQuote content =>
    change (ofPieces line (cut ('"' :: (content ++ '\n' :: more)))).head? = _ at same
    rw [cut_cons, first, ofPieces_cons] at same
    cases found : upToQuote? (content ++ '\n' :: more) with
    | some parts =>
      rw [found] at same
      cases same
    | none =>
      rw [found] at same
      exact ofList_newline_ne ('"' :: content) more
        (Option.some.inj (congrArg (Option.map Token.lexeme) same))
  | openComment body =>
    change (ofPieces line (cut ('/' :: '*' :: (body ++ '\n' :: more)))).head? = _ at same
    rw [cut_cons, first, ofPieces_cons] at same
    cases found : upToClose? (body ++ '\n' :: more) with
    | some parts =>
      -- the comment is closed further down, where the next token is
      obtain ⟨inside, after⟩ := parts
      obtain ⟨deeper, rfl⟩ := upToClose?_newline formed found
      rw [found] at same
      have below : line + (blockComment (body ++ '\n' :: deeper)).newlines ≤
          line + (openComment body).newlines := ofPieces_line_le (List.mem_of_mem_head? same)
      have inner : (blockComment (body ++ '\n' :: deeper)).newlines =
          body.count '\n' + (deeper.count '\n' + 1) := by simp [newlines, text]
      have outer : (openComment body).newlines = body.count '\n' := by simp [newlines, text]
      omega
    | none =>
      rw [found] at same
      exact ofList_newline_ne ('/' :: '*' :: body) more
        (Option.some.inj (congrArg (Option.map Token.lexeme) same))
  | blank | lineComment | blockComment | mark | word | numeral | quoted | unexpected
  | strayClose => cases unclosed

private theorem closed_iff (source : String) :
    (∀ p ∈ cut source.toList, p.isOpen = false) ↔ ∀ t ∈ scan source, ¬ t.Unterminated := by
  constructor
  · intro closed t member unterminated
    rw [scan_eq] at member
    rcases List.mem_append.1 member with inside | final
    · obtain ⟨p, among, meaning⟩ := mem_spoken inside
      have unclosed := isOpen_of_unterminated unterminated meaning
      rw [closed p among] at unclosed
      cases unclosed
    · rw [List.mem_singleton.1 final] at unterminated
      cases unterminated.1
  · intro terminated p member
    refine Bool.eq_false_iff.2 fun unclosed => ?_
    obtain ⟨init, pieces, _⟩ := (separated_cut source.toList).open_last member unclosed
    obtain ⟨t, made, unterminated⟩ := unterminated_of_isOpen unclosed (1 + lines init)
    refine terminated t ?_ unterminated
    rw [scan, pieces, ofPieces_append, ofPieces_cons, made]
    simp

private theorem dropLast_scan (source : String) :
    (scan source).dropLast = spoken 1 (cut source.toList) := by
  rw [scan_eq, List.dropLast_concat]

/-- With a line break between them two texts have the tokens of the first one up to its end
and then those of the second one, on lines further down, unless the first text leaves a
quoted text or a block comment open, and not otherwise. -/
theorem scan_newline (first second : String) :
    (∀ t ∈ scan first, ¬ t.Unterminated) ↔
      scan (first ++ "\n" ++ second) =
        (scan first).dropLast ++ (scan second).map (relined (below first)) := by
  rw [← closed_iff, dropLast_scan]
  have joined : (first ++ "\n" ++ second).toList = first.toList ++ '\n' :: second.toList := by simp
  constructor
  · intro closed
    have last : (1 : Int) + (first ++ "\n" ++ second).toList.count '\n' =
        below first (1 + second.toList.count '\n') := by
      rw [joined, List.count_append, List.count_cons_self]
      unfold below
      omega
    rw [scan_eq, spoken_newline closed, last, scan_eq second, List.map_append, List.append_assoc]
    rfl
  · intro whole p member
    refine Bool.eq_false_iff.2 fun unclosed => ?_
    obtain ⟨init, pieces, closed⟩ := (separated_cut first.toList).open_last member unclosed
    obtain ⟨t, made, _⟩ := unterminated_of_isOpen unclosed (1 + lines init)
    have formed := (separated_cut first.toList).formed p member
    refine head?_ofPieces_open unclosed formed (1 + lines init) second.toList ?_
    rw [scan, joined, cut_newline_open pieces closed, ofPieces_append, pieces, spoken_append,
      List.append_assoc, List.append_cancel_left_eq, spoken, made] at whole
    rw [whole, made]
    rfl

end Token

end Scriptlet
