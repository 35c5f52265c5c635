import Scriptlet.Proofs.Number.Nearest
import Scriptlet.Proofs.Token.Lines

/-! The lexical grammar, without the order in which its rules are tried. A source
text is made of the texts of its tokens with layout between them. Layout is blanks
and comments; every token has the form of its kind, and what follows in the source
would not make it longer. The scanner finds the one way in which a text is so made. -/
namespace Scriptlet.Lexical
open Token Piece

/-- Marks of two characters, and the pairs that open or close a comment. -/
def pairs : List (List Char) :=
  [['!', '='], ['=', '='], ['<', '='], ['>', '='], ['/', '/'], ['/', '*'], ['*', '/']]

def reserved : List (String × Kind) :=
  [("and", .andWord), ("class", .classWord), ("else", .elseWord), ("false", .falseWord),
   ("for", .forWord), ("fun", .funWord), ("if", .ifWord), ("nil", .nilWord), ("or", .orWord),
   ("print", .printWord), ("return", .returnWord), ("super", .superWord), ("this", .thisWord),
   ("true", .trueWord), ("var", .varWord), ("while", .whileWord)]

def InWord (c : Char) : Prop := c.isAlpha = true ∨ c = '_' ∨ c.isDigit = true

def Ends (test : Char → Prop) (rest : List Char) : Prop := ∀ c, rest.head? = some c → ¬test c

def Unclosed (body : List Char) : Prop := ¬['*', '/'] <:+: body

/-- Layout in front of the rest of a source text. -/
inductive Layout : List Char → List Char → Prop
  | nil {rest} : Layout [] rest
  | blank {c gap rest} (space : c ∈ [' ', '\r', '\t', '\n']) (more : Layout gap rest) :
      Layout (c :: gap) rest
  /-- A comment up to the end of its line. -/
  | line {body gap rest} (inside : '\n' ∉ body) (ends : Ends (· ≠ '\n') (gap ++ rest))
      (more : Layout gap rest) : Layout ('/' :: '/' :: (body ++ gap)) rest
  /-- A comment up to the first closing pair behind its opening one. -/
  | block {body gap rest} (inside : Unclosed body) (more : Layout gap rest) :
      Layout ('/' :: '*' :: (body ++ '*' :: '/' :: gap)) rest

structure Foreign (c : Char) : Prop where
  layout : c ∉ [' ', '\r', '\t', '\n']
  word : ¬InWord c
  quote : c ≠ '"'
  mark : ∀ kind : Kind, kind.isMark = true → kind.spelling.toList ≠ [c]

/-- The text of a token of a kind and with a value, in front of the rest of the source. -/
inductive Lexeme : Kind → Value → List Char → List Char → Prop
  | mark {kind rest} (sort : kind.isMark = true)
      (ends : Ends (fun c => kind.spelling.toList ++ [c] ∈ pairs) rest) :
      Lexeme kind .nil kind.spelling.toList rest
  | keyword {word kind rest} (member : (word, kind) ∈ reserved) (ends : Ends InWord rest) :
      Lexeme kind .nil word.toList rest
  | name {c more rest} (letter : c.isAlpha = true ∨ c = '_') (inside : ∀ d ∈ more, InWord d)
      (unreserved : ∀ entry ∈ reserved, entry.1.toList ≠ c :: more)
      (ends : Ends InWord rest) : Lexeme .identifier .nil (c :: more) rest
  | whole {digits rest n} (some_digit : digits ≠ []) (inside : ∀ d ∈ digits, d.isDigit = true)
      (ends : Ends (·.isDigit = true) rest)
      (no_point : ∀ d more, rest = '.' :: d :: more → d.isDigit = false)
      (nearest : Number.Nearest (Number.numeralValue digits []) n) :
      Lexeme .number (.number n) digits rest
  | decimal {whole fraction rest n} (some_digit : whole ≠ []) (some_place : fraction ≠ [])
      (digits : ∀ d ∈ whole, d.isDigit = true) (places : ∀ d ∈ fraction, d.isDigit = true)
      (ends : Ends (·.isDigit = true) rest)
      (nearest : Number.Nearest (Number.numeralValue whole fraction) n) :
      Lexeme .number (.number n) (whole ++ '.' :: fraction) rest
  | quoted {content rest} (inside : '"' ∉ content) :
      Lexeme .string (.text (String.ofList content)) ('"' :: (content ++ ['"'])) rest
  | unexpected {c rest} (foreign : Foreign c) :
      Lexeme .error (.text ("Unexpected character \x60" ++ String.singleton c ++ "\x60")) [c] rest
  | strayClose {rest} :
      Lexeme .error (.text "Unexpected end of comment outside block comment") ['*', '/'] rest
  | openQuote {content} (inside : '"' ∉ content) :
      Lexeme .error (.text "Unterminated string") ('"' :: content) []
  | openComment {body} (inside : Unclosed body) :
      Lexeme .error (.text "Unterminated block comment") ('/' :: '*' :: body) []

/-- Line breaks between the start of a lexeme and the place where its token is. A
quoted text that does not end is on the line of its quote, any other on that of its end. -/
def descent (kind : Kind) (text : List Char) : Nat :=
  if kind = .error ∧ text.head? = some '"' then 0 else text.count '\n'

/-- A source text from the given line on, and its tokens. -/
inductive Lexed : Int → List Char → List Token → Prop
  | finish {line : Int} {gap} (layout : Layout gap []) :
      Lexed line gap [.eof (line + gap.count '\n')]
  | token {line : Int} {gap text rest t more} (layout : Layout gap (text ++ rest))
      (lexeme : Lexeme t.kind t.literal text rest) (spelled : t.lexeme = String.ofList text)
      (placed : t.line = line + gap.count '\n' + descent t.kind text)
      (later : Lexed (line + (gap ++ text).count '\n') rest more) :
      Lexed line (gap ++ (text ++ rest)) (t :: more)

section Comments
variable {body : List Char}

private theorem unclosed_cons (c : Char) (body : List Char) :
    Unclosed (c :: body) ↔ (c = '*' → body.head? ≠ some '/') ∧ Unclosed body := by
  unfold Unclosed
  rw [List.infix_cons_iff, not_or]
  refine and_congr_left fun _ => ?_
  cases body with
  | nil => simp
  | cons d body => simp [eq_comm]

private theorem unclosed_iff_open : Unclosed body ↔ upToClose? body = none := by
  induction body with
  | nil => exact iff_of_true (by simp [Unclosed]) rfl
  | cons c body ih =>
    rw [unclosed_cons, ih]
    by_cases closes : c = '*' ∧ body.head? = some '/'
    · obtain ⟨rfl, head⟩ := closes
      cases body with
      | nil => cases head
      | cons d body =>
        cases head
        simp [upToClose?]
    · have apart : c = '*' → body.head? ≠ some '/' := fun star head => closes ⟨star, head⟩
      rw [upToClose?_cons apart, Option.map_eq_none_iff]
      exact and_iff_right apart

private theorem unclosed_iff_closed :
    Unclosed body ↔ upToClose? (body ++ ['*', '/']) = some (body, []) := by
  induction body with
  | nil => exact iff_of_true (by simp [Unclosed]) rfl
  | cons c body ih =>
    rw [unclosed_cons, ih, List.cons_append]
    by_cases closes : c = '*' ∧ (body ++ ['*', '/']).head? = some '/'
    · obtain ⟨rfl, head⟩ := closes
      cases body with
      | nil => cases head
      | cons d body =>
        cases head
        simp [upToClose?]
    · have apart : c = '*' → (body ++ ['*', '/']).head? ≠ some '/' :=
        fun star head => closes ⟨star, head⟩
      have apart' : c = '*' → body.head? ≠ some '/' := by
        intro star head
        refine apart star ?_
        rw [List.head?_append, head]
        rfl
      rw [upToClose?_cons apart, and_iff_right apart']
      simp

end Comments

section Characters

private theorem mem_blanks {c : Char} : c ∈ [' ', '\r', '\t', '\n'] ↔ isBlank c = true := by
  simp [isBlank, or_assoc]

private theorem inWord_iff {c : Char} : InWord c ↔ isWordRest c = true := by
  simp [InWord, isWordRest, isWordStart, or_assoc]

private theorem letter_iff {c : Char} : c.isAlpha = true ∨ c = '_' ↔ isWordStart c = true := by
  simp [isWordStart]

private theorem ends_iff {test : Char → Prop} {check : Char → Bool} (same : ∀ c, test c ↔ check c = true)
    {rest : List Char} : Ends test rest ↔ Boundary check rest := by
  unfold Ends Boundary
  simp only [same, Bool.not_eq_true]

private theorem mem_pairs {text : List Char} {c : Char} : text ++ [c] ∈ pairs ↔ joins text c = true := by
  constructor
  · intro member
    simp only [pairs, List.mem_cons, List.not_mem_nil, or_false] at member
    rcases member with same | same | same | same | same | same | same <;>
      · have split : text ++ [c] = [_] ++ [_] := same
        obtain ⟨rfl, last⟩ := List.append_inj' split rfl
        cases last
        rfl
  · intro joined
    unfold joins at joined
    split at joined <;> first | (simp [pairs]; done) | cases joined

private theorem not_mem_iff {body : List Char} {c : Char} : c ∉ body ↔ ∀ d ∈ body, (d != c) = true := by
  constructor
  · intro absent d member
    refine bne_iff_ne.2 fun same => absent ?_
    rwa [← same]
  · intro others member
    exact bne_iff_ne.1 (others c member) rfl

private theorem ofMark?_spelling {kind : Kind} {c : Char} (sort : kind.isMark = true)
    (spelled : kind.spelling.toList = [c]) : Kind.ofMark? c = some kind := by
  rcases spelling_of_isMark sort with ⟨d, same, found, -⟩ | ⟨d, same, -⟩
  · rw [same] at spelled
    cases spelled
    exact found
  · rw [same] at spelled
    cases spelled

private theorem foreign_iff {c : Char} : Foreign c ↔ isForeign c = true := by
  have marks : (∀ kind : Kind, kind.isMark = true → kind.spelling.toList ≠ [c]) ↔
      Kind.ofMark? c = none := by
    constructor
    · intro none_spelled
      cases found : Kind.ofMark? c with
      | none => rfl
      | some kind =>
        obtain ⟨sort, spelled⟩ := isMark_of_ofMark? found
        exact absurd spelled (none_spelled kind sort)
    · intro none_made kind sort spelled
      rw [ofMark?_spelling sort spelled] at none_made
      cases none_made
  constructor
  · intro foreign
    have blank := mt mem_blanks.2 foreign.layout
    have word := mt inWord_iff.2 foreign.word
    simp only [isWordRest, Bool.or_eq_true, not_or, Bool.not_eq_true] at blank word
    simp [isForeign, marks.1 foreign.mark, blank, word.1, word.2, foreign.quote]
  · intro foreign
    simp only [isForeign, Bool.and_eq_true, Option.isNone_iff_eq_none, Bool.not_eq_true',
      bne_iff_ne] at foreign
    obtain ⟨⟨⟨⟨no_mark, no_blank⟩, no_digit⟩, no_letter⟩, no_quote⟩ := foreign
    refine ⟨mt mem_blanks.1 (by simp [no_blank]), mt inWord_iff.1 ?_, no_quote, marks.2 no_mark⟩
    simp [isWordRest, no_digit, no_letter]

theorem keyword_letters {kind : Kind} (member : kind ∈ Kind.keywords) :
    (word kind.spelling.toList).WellFormed ∧ Kind.ofWord kind.spelling = kind := by
  have starts : ∀ kind ∈ Kind.keywords, kind.spelling.toList.head?.any isWordStart = true ∧
      kind.spelling.toList.tail.all isWordRest = true ∧ Kind.ofWord kind.spelling = kind := by
    decide
  obtain ⟨letter, inside, same⟩ := starts kind member
  refine ⟨?_, same⟩
  cases letters : kind.spelling.toList with
  | nil =>
    rw [letters] at letter
    cases letter
  | cons c more =>
    rw [letters] at letter inside
    exact ⟨c, more, rfl, letter, List.all_eq_true.1 inside⟩

/-- The reserved words are what the scanner takes for keywords. -/
theorem mem_reserved {word : String} {kind : Kind} :
    (word, kind) ∈ reserved ↔ kind ∈ Kind.keywords ∧ kind.spelling = word := by
  constructor
  · have spelled : ∀ entry ∈ reserved, entry.2 ∈ Kind.keywords ∧ entry.2.spelling = entry.1 := by
      decide
    exact spelled (word, kind)
  · rintro ⟨member, rfl⟩
    have listed : ∀ kind ∈ Kind.keywords, (kind.spelling, kind) ∈ reserved := by decide
    exact listed kind member

private theorem ofWord_cases (letters : List Char) :
    (∃ kind, (String.ofList letters, kind) ∈ reserved ∧
      Kind.ofWord (String.ofList letters) = kind) ∨
    (∀ entry ∈ reserved, entry.1.toList ≠ letters) ∧
      Kind.ofWord (String.ofList letters) = .identifier := by
  unfold Kind.ofWord
  cases found : Kind.keywords.find? (·.spelling == String.ofList letters) with
  | none =>
    refine .inr ⟨fun entry member same => ?_, rfl⟩
    obtain ⟨keyword, spelled⟩ := mem_reserved.1 member
    have differs := List.find?_eq_none.1 found entry.2 keyword
    rw [spelled, ← same, String.ofList_toList] at differs
    simp at differs
  | some kind =>
    have spelled := List.find?_some (p := fun kind : Kind => kind.spelling == _) found
    exact .inl ⟨kind, mem_reserved.2 ⟨List.mem_of_find?_eq_some found, beq_iff_eq.1 spelled⟩, rfl⟩

end Characters

section Pieces
variable {p : Piece} {kind : Kind} {literal : Value} {gap text rest : List Char}

theorem lexeme_of_piece (formed : p.WellFormed) (fits : p.Fits rest)
    (meaning : p.meaning? = some (kind, literal)) : Lexeme kind literal p.text rest := by
  cases p with
  | blank | lineComment | blockComment => cases meaning
  | mark kind =>
    cases meaning
    exact .mark formed ((ends_iff fun c => mem_pairs).2 fits)
  | word letters =>
    obtain ⟨sort, rfl⟩ := Prod.mk.inj (Option.some.inj meaning)
    have ends : Ends InWord rest := (ends_iff fun c => inWord_iff).2 fits
    rcases ofWord_cases letters with ⟨keyword, member, same⟩ | ⟨unreserved, same⟩
    · rw [← sort, same, Piece.text, ← String.toList_ofList (l := letters)]
      exact .keyword member ends
    · rw [← sort, same]
      obtain ⟨c, more, rfl, letter, inside⟩ := formed
      exact .name (letter_iff.2 letter) (fun d member => inWord_iff.2 (inside d member)) unreserved
        ends
  | numeral whole fraction =>
    cases meaning
    obtain ⟨some_digit, digits, places⟩ := formed
    obtain ⟨boundary, no_point⟩ := fits
    have ends : Ends (·.isDigit = true) rest := (ends_iff fun c => Iff.rfl).2 boundary
    have nearest := Number.nearest_ofNumeral whole fraction
    cases fraction with
    | nil => exact .whole some_digit digits ends (no_point rfl) nearest
    | cons d fraction =>
      exact .decimal some_digit (List.cons_ne_nil d fraction) digits places ends nearest
  | quoted content =>
    cases meaning
    exact .quoted (not_mem_iff.2 formed)
  | unexpected c =>
    cases meaning
    exact .unexpected (foreign_iff.2 formed)
  | strayClose =>
    cases meaning
    exact .strayClose
  | openQuote content =>
    cases meaning
    cases fits
    exact .openQuote (not_mem_iff.2 formed)
  | openComment body =>
    cases meaning
    cases fits
    exact .openComment (unclosed_iff_open.2 formed)

theorem piece_of_lexeme (lexeme : Lexeme kind literal text rest) :
    ∃ p : Piece, p.WellFormed ∧ p.Fits rest ∧ p.text = text ∧
      p.meaning? = some (kind, literal) := by
  cases lexeme with
  | mark sort ends =>
    exact ⟨.mark kind, sort, (ends_iff fun c => mem_pairs).1 ends, rfl, rfl⟩
  | keyword member ends =>
    obtain ⟨listed, rfl⟩ := mem_reserved.1 member
    obtain ⟨formed, same⟩ := keyword_letters listed
    refine ⟨_, formed, (ends_iff fun c => inWord_iff).1 ends, rfl, ?_⟩
    rw [Piece.meaning?, String.ofList_toList, same]
  | @name c more _ letter inside unreserved ends =>
    have formed : (word (c :: more)).WellFormed :=
      ⟨c, more, rfl, letter_iff.1 letter, fun d member => inWord_iff.1 (inside d member)⟩
    refine ⟨_, formed, (ends_iff fun c => inWord_iff).1 ends, rfl, ?_⟩
    rcases ofWord_cases (c :: more) with ⟨keyword, member, -⟩ | ⟨-, same⟩
    · exact absurd String.toList_ofList (unreserved _ member)
    · rw [Piece.meaning?, same]
  | whole some_digit inside ends no_point nearest =>
    refine ⟨numeral text [], ⟨some_digit, inside, nofun⟩,
      ⟨(ends_iff fun c => Iff.rfl).1 ends, fun _ => no_point⟩, rfl, ?_⟩
    rw [nearest.unique (Number.nearest_ofNumeral text [])]
    rfl
  | @decimal whole fraction _ n some_digit some_place digits places ends nearest =>
    refine ⟨numeral whole fraction, ⟨some_digit, digits, places⟩,
      ⟨(ends_iff fun c => Iff.rfl).1 ends, fun empty => absurd empty some_place⟩, ?_, ?_⟩
    · cases fraction with
      | nil => exact absurd rfl some_place
      | cons d fraction => rfl
    · rw [nearest.unique (Number.nearest_ofNumeral whole fraction)]
      rfl
  | quoted inside => exact ⟨.quoted _, not_mem_iff.1 inside, trivial, rfl, rfl⟩
  | unexpected foreign => exact ⟨.unexpected _, foreign_iff.1 foreign, trivial, rfl, rfl⟩
  | strayClose => exact ⟨.strayClose, trivial, trivial, rfl, rfl⟩
  | openQuote inside => exact ⟨.openQuote _, not_mem_iff.1 inside, rfl, rfl, rfl⟩
  | openComment inside => exact ⟨.openComment _, unclosed_iff_open.1 inside, rfl, rfl, rfl⟩

private theorem layout_of_piece (formed : p.WellFormed) (silent : p.meaning? = none)
    (fits : p.Fits (gap ++ rest)) (layout : Layout gap rest) : Layout (p.text ++ gap) rest := by
  cases p with
  | blank c => exact .blank (mem_blanks.2 formed) layout
  | lineComment body =>
    have same : (lineComment body).text ++ gap = '/' :: '/' :: (body ++ gap) := rfl
    rw [same]
    exact .line (not_mem_iff.2 formed) ((ends_iff fun c => by simp).2 fits) layout
  | blockComment body =>
    have same : (blockComment body).text ++ gap = '/' :: '*' :: (body ++ '*' :: '/' :: gap) := by
      simp [Piece.text]
    rw [same]
    exact .block (unclosed_iff_closed.2 formed) layout
  | mark | word | numeral | quoted | unexpected | strayClose | openQuote | openComment =>
    cases silent

private theorem pieces_of_layout (layout : Layout gap rest) :
    ∃ pieces : List Piece, pieces.flatMap Piece.text = gap ∧ Separated pieces rest ∧
      ∀ p ∈ pieces, p.meaning? = none := by
  induction layout with
  | nil => exact ⟨[], rfl, trivial, nofun⟩
  | @blank c gap rest space more ih =>
    obtain ⟨pieces, rfl, separated, silent⟩ := ih
    refine ⟨blank c :: pieces, rfl, ⟨mem_blanks.1 space, trivial, separated⟩, ?_⟩
    exact List.forall_mem_cons.2 ⟨rfl, silent⟩
  | @line body gap rest inside ends more ih =>
    obtain ⟨pieces, rfl, separated, silent⟩ := ih
    refine ⟨lineComment body :: pieces, rfl,
      ⟨not_mem_iff.1 inside, (ends_iff fun c => by simp).1 ends, separated⟩, ?_⟩
    exact List.forall_mem_cons.2 ⟨rfl, silent⟩
  | @block body gap rest inside more ih =>
    obtain ⟨pieces, rfl, separated, silent⟩ := ih
    refine ⟨blockComment body :: pieces, by simp [Piece.text],
      ⟨unclosed_iff_closed.1 inside, trivial, separated⟩, ?_⟩
    exact List.forall_mem_cons.2 ⟨rfl, silent⟩

private theorem fault?_ne_none (formed : p.WellFormed) (meaning : p.meaning? = some (.error, literal)) :
    p.fault? ≠ none := by
  cases makes_of_meaning formed meaning with
  | mark sort => cases sort
  | keyword member => exact absurd member (by decide)
  | error wrong => simp [wrong]

private theorem tokenLine_eq (formed : p.WellFormed) (meaning : p.meaning? = some (kind, literal))
    (line : Int) : p.tokenLine line = line + descent kind p.text := by
  cases p with
  | blank | lineComment | blockComment => cases meaning
  | openQuote content =>
    cases meaning
    exact (Int.add_zero line).symm
  | unexpected c =>
    cases meaning
    have no_quote : c ≠ '"' := (foreign_iff.2 formed).quote
    have opens : ¬((unexpected c).text.head? = some '"') := by simpa [Piece.text] using no_quote
    rw [descent, if_neg (by tauto)]
    rfl
  | strayClose | openComment =>
    cases meaning
    rfl
  | mark | word | numeral | quoted =>
    have sort : kind ≠ .error := by
      rintro rfl
      exact fault?_ne_none formed meaning rfl
    rw [descent, if_neg (by tauto)]
    rfl

private theorem token?_eq {line : Int} {t : Token} (formed : p.WellFormed) :
    p.token? line = some t ↔
      p.meaning? = some (t.kind, t.literal) ∧ t.lexeme = String.ofList p.text ∧
        t.line = line + descent t.kind p.text := by
  unfold Piece.token?
  constructor
  · intro found
    obtain ⟨⟨kind, literal⟩, meaning, rfl⟩ := Option.map_eq_some_iff.1 found
    exact ⟨meaning, rfl, tokenLine_eq formed meaning line⟩
  · rintro ⟨meaning, spelled, placed⟩
    rw [meaning, Option.map_some, tokenLine_eq formed meaning, ← placed, ← spelled]

private theorem token?_silent (silent : p.meaning? = none) (line : Int) : p.token? line = none := by
  rw [Piece.token?, silent]
  rfl

end Pieces

theorem Lexed.behind {p : Piece} {line : Int} {source : List Char} {tokens : List Token}
    (formed : p.WellFormed) (silent : p.meaning? = none) (fits : p.Fits source)
    (lexed : Lexed (line + p.newlines) source tokens) : Lexed line (p.text ++ source) tokens := by
  have down : ∀ gap : List Char,
      line + ((p.text ++ gap).count '\n' : Nat) = line + p.newlines + gap.count '\n' := by
    intro gap
    rw [List.count_append, Piece.newlines]
    push_cast
    exact (Int.add_assoc _ _ _).symm
  cases lexed with
  | @finish _ gap layout =>
    rw [← down]
    exact .finish (layout_of_piece formed silent (by rwa [List.append_nil]) layout)
  | @token _ gap text rest t more layout lexeme spelled placed later =>
    rw [← List.append_assoc]
    refine .token (layout_of_piece formed silent fits layout) lexeme spelled ?_ ?_
    · rw [placed, down]
    · rw [List.append_assoc, down]
      exact later

theorem lexed_of_separated {pieces : List Piece} (separated : Separated pieces []) (line : Int) :
    Lexed line (pieces.flatMap Piece.text) (ofPieces line pieces) := by
  induction pieces generalizing line with
  | nil =>
    have ended : Lexed line [] [.eof (line + (0 : Nat))] := .finish .nil
    rwa [Int.natCast_zero, Int.add_zero] at ended
  | cons p more ih =>
    obtain ⟨formed, fits, later⟩ := separated
    rw [List.append_nil] at fits
    have lexed := ih later (line + p.newlines)
    rw [List.flatMap_cons, ofPieces_cons]
    cases found : p.token? line with
    | none =>
      have silent : p.meaning? = none := Option.map_eq_none_iff.1 found
      exact lexed.behind formed silent fits
    | some t =>
      obtain ⟨meaning, spelled, placed⟩ := (token?_eq formed).1 found
      have lexeme := lexeme_of_piece formed fits meaning
      refine (Lexed.token .nil lexeme spelled ?_ lexed : Lexed line ([] ++ (p.text ++ _)) _)
      rw [placed, List.count_nil, Int.natCast_zero, Int.add_zero]

private theorem ofPieces_silent {pieces : List Piece} (silent : ∀ p ∈ pieces, p.meaning? = none)
    (line : Int) (more : List Piece) :
    ofPieces line (pieces ++ more) = ofPieces (line + lines pieces) more := by
  induction pieces generalizing line with
  | nil => simp [lines]
  | cons p pieces ih =>
    obtain ⟨here, later⟩ := List.forall_mem_cons.1 silent
    rw [List.cons_append, ofPieces_cons, token?_silent here, ih later, lines_cons]
    push_cast
    rw [Int.add_assoc]
    rfl

/-- A source text has no other tokens than those the scanner finds. -/
theorem eq_of_lexed {line : Int} {source : List Char} {tokens : List Token}
    (lexed : Lexed line source tokens) : tokens = ofPieces line (cut source) := by
  induction lexed with
  | @finish line gap layout =>
    obtain ⟨pieces, rfl, separated, silent⟩ := pieces_of_layout layout
    have whole := cut_flatMap separated
    rw [List.append_nil, cut_nil] at whole
    rw [whole, ofPieces_silent silent]
    rfl
  | @token line gap text rest t more layout lexeme spelled placed later ih =>
    obtain ⟨pieces, rfl, separated, silent⟩ := pieces_of_layout layout
    obtain ⟨p, formed, fits, rfl, meaning⟩ := piece_of_lexeme lexeme
    have found : p.token? (line + lines pieces) = some t :=
      (token?_eq formed).2 ⟨meaning, spelled, placed⟩
    rw [cut_flatMap separated, cut_text formed fits, ofPieces_silent silent, ofPieces_cons, found,
      ih, List.count_append]
    push_cast
    rw [← Int.add_assoc]
    rfl

/-- The scanner realises the lexical grammar: its tokens end with the only one of kind
eof, the text is made of them and of layout, and of no other tokens. -/
theorem scan_eq_iff_lexed (source : String) :
    (∃ spoken, scan source = spoken ++ [.eof (1 + source.toList.count '\n')] ∧
      ∀ t ∈ spoken, t.kind ≠ .eof) ∧
    ∀ tokens, scan source = tokens ↔ Lexed 1 source.toList tokens := by
  refine ⟨⟨_, scan_eq source, fun t => ne_eof_of_spoken⟩, fun tokens => ⟨?_, ?_⟩⟩
  · rintro rfl
    have lexed := lexed_of_separated (separated_cut source.toList) 1
    rwa [flatMap_text_cut] at lexed
  · exact fun lexed => (eq_of_lexed lexed).symm

end Scriptlet.Lexical
