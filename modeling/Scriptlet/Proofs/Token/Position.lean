import Scriptlet.Proofs.Token.Newline
import Scriptlet.Proofs.Token.Spaced

/-! Lines of tokens by where the tokens stand. The text in front of a token is known
from the lexical grammar alone, and the line of the token from that text: it is the
line on which the lexeme ends, or starts where the lexeme is a quoted text that does
not end. Further down in the list the lines are never smaller. -/
namespace Scriptlet.Lexical
open Token Piece

/-- The tokens of a source text, each with the text in front of its lexeme, and the one
of kind eof at the end of the text. Any lines will do. -/
inductive Laid : List Char → List Char → List (List Char × Token) → Prop
  | finish {ahead gap} {line : Int} (layout : Layout gap []) :
      Laid ahead gap [(ahead ++ gap, .eof line)]
  | token {ahead gap rest t more} (layout : Layout gap (t.lexeme.toList ++ rest))
      (lexeme : Lexeme t.kind t.literal t.lexeme.toList rest)
      (later : Laid (ahead ++ gap ++ t.lexeme.toList) rest more) :
      Laid ahead (gap ++ (t.lexeme.toList ++ rest)) ((ahead ++ gap, t) :: more)

/-- The line of a token behind this text: line breaks count up to the end of its lexeme,
but for a quoted text that does not end only up to the start. -/
def lineBehind (ahead : List Char) (t : Token) : Int :=
  if t.kind = .error ∧ t.literal = .text "Unterminated string" then 1 + ahead.count '\n'
  else 1 + (ahead ++ t.lexeme.toList).count '\n'

private theorem lineBehind_eof (ahead : List Char) (line : Int) :
    lineBehind ahead (.eof line) = 1 + ahead.count '\n' := by
  have no_error : (eof line).kind ≠ .error := Kind.noConfusion
  unfold lineBehind
  rw [if_neg fun unended => no_error unended.1]
  show (1 : Int) + ((ahead ++ []).count '\n' : Nat) = _
  rw [List.append_nil]

private theorem head?_quote_iff {kind : Kind} {literal : Value} {text rest : List Char}
    (lexeme : Lexeme kind literal text rest) :
    kind = .error ∧ text.head? = some '"' ↔
      kind = .error ∧ literal = .text "Unterminated string" := by
  refine and_congr_right fun sort => ?_
  subst sort
  cases lexeme with
  | mark sort => cases sort
  | keyword member => exact absurd (mem_reserved.1 member).1 (by decide)
  | @unexpected c _ foreign =>
    refine iff_of_false (fun head => foreign.quote (Option.some.inj head)) fun same => ?_
    simp only [Value.text.injEq, String.ext_iff, String.toList_append] at same
    simp at same
  | strayClose => exact iff_of_false (by decide) (by decide)
  | openQuote => exact iff_of_true rfl rfl
  | openComment => exact iff_of_false (by simp) (by decide)

private theorem lineBehind_eq {t : Token} {rest : List Char}
    (lexeme : Lexeme t.kind t.literal t.lexeme.toList rest) (ahead : List Char) :
    lineBehind ahead t = 1 + ahead.count '\n' + descent t.kind t.lexeme.toList := by
  unfold lineBehind descent
  simp only [head?_quote_iff lexeme]
  split
  · rw [Int.natCast_zero, Int.add_zero]
  · rw [List.count_append]
    push_cast
    exact (Int.add_assoc _ _ _).symm

variable {ahead source : List Char} {placed : List (List Char × Token)}

theorem Laid.lexed (laid : Laid ahead source placed) :
    Lexed (1 + ahead.count '\n') source
      (placed.map fun p => { p.2 with line := lineBehind p.1 p.2 }) := by
  induction laid with
  | @finish ahead gap line layout =>
    have ended : lineBehind (ahead ++ gap) (.eof line) =
        1 + ahead.count '\n' + gap.count '\n' := by
      rw [lineBehind_eof, List.count_append]
      push_cast
      exact (Int.add_assoc _ _ _).symm
    show Lexed _ _ [.eof (lineBehind _ _)]
    rw [ended]
    exact .finish layout
  | @token ahead gap rest t more layout lexeme later ih =>
    refine .token layout lexeme String.ofList_toList.symm ?_ ?_
    · show lineBehind (ahead ++ gap) t = _
      rw [lineBehind_eq lexeme, List.count_append]
      push_cast
      omega
    · rw [List.append_assoc, List.count_append] at ih
      push_cast at ih
      rw [← Int.add_assoc] at ih
      exact ih

private theorem Lexed.laid {line : Int} {tokens : List Token} (lexed : Lexed line source tokens)
    (ahead : List Char) :
    ∃ placed, Laid ahead source placed ∧ placed.map Prod.snd = tokens := by
  induction lexed generalizing ahead with
  | finish layout => exact ⟨_, .finish layout, rfl⟩
  | @token line gap text rest t more layout lexeme spelled _ _ ih =>
    have same : t.lexeme.toList = text := by rw [spelled, String.toList_ofList]
    subst same
    obtain ⟨placed, laid, rfl⟩ := ih (ahead ++ gap ++ t.lexeme.toList)
    exact ⟨_, .token layout lexeme laid, rfl⟩

theorem pairwise_ofPieces (line : Int) (pieces : List Piece) :
    (ofPieces line pieces).Pairwise fun t u => t.line ≤ u.line := by
  induction pieces generalizing line with
  | nil => exact List.pairwise_singleton _ _
  | cons p more ih =>
    rw [ofPieces_cons]
    refine List.pairwise_append.2 ⟨?_, ih _, fun t here u later => ?_⟩
    · cases p.token? line with
      | none => exact .nil
      | some t => exact List.pairwise_singleton _ _
    · have below := ofPieces_line_le later
      obtain ⟨_, _, rfl⟩ := Option.map_eq_some_iff.1 (Option.mem_toList.1 here)
      show p.tokenLine line ≤ u.line
      unfold tokenLine
      split <;> omega

private theorem map_line_eq_iff {f : List Char × Token → Int} :
    placed.map (fun p => { p.2 with line := f p }) = placed.map Prod.snd ↔
      ∀ p ∈ placed, p.2.line = f p := by
  rw [List.map_inj_left]
  refine forall₂_congr fun p _ => ⟨fun same => ?_, fun same => ?_⟩
  · exact (congrArg Token.line same).symm
  · rw [← same]

/-- Lines are exact. The tokens of a source text are those that the lexical grammar finds
in it, each on the line that the text in front of it and its lexeme make it be on and on
no other; the one of kind eof is on the last line, and no line is smaller than an earlier
one. -/
theorem scan_line (source : String) :
    (∃ placed, Laid [] source.toList placed ∧ placed.map Prod.snd = scan source) ∧
      (∀ placed, Laid [] source.toList placed →
        (placed.map Prod.snd = scan source ↔ ∀ p ∈ placed, p.2.line = lineBehind p.1 p.2)) ∧
      (scan source).getLast? = some (.eof (1 + source.toList.count '\n')) ∧
      (scan source).Pairwise fun t u => t.line ≤ u.line := by
  have lexed := lexed_of_separated (separated_cut source.toList) 1
  rw [flatMap_text_cut] at lexed
  refine ⟨lexed.laid [], fun placed laid => ?_, ?_, pairwise_ofPieces 1 _⟩
  · have found : placed.map (fun p => { p.2 with line := lineBehind p.1 p.2 }) = scan source :=
      eq_of_lexed laid.lexed
    rw [← found, eq_comm]
    exact map_line_eq_iff
  · rw [scan_eq]
    exact List.getLast?_concat

/-- A name, a comment over two lines, and a quoted text that does not end. -/
theorem scan_line_unended :
    Laid [] "a /*\n*/ \"b\nc".toList
        [([], ⟨.identifier, "a", 1, .nil⟩),
          ("a /*\n*/ ".toList, ⟨.error, "\"b\nc", 2, .text "Unterminated string"⟩),
          ("a /*\n*/ \"b\nc".toList, .eof 3)] ∧
      [⟨.identifier, "a", 1, .nil⟩, ⟨.error, "\"b\nc", 2, .text "Unterminated string"⟩, .eof 3] =
        scan "a /*\n*/ \"b\nc" := by
  have name : Lexeme .identifier .nil "a".toList " /*\n*/ \"b\nc".toList :=
    .name (.inl rfl) nofun (by decide) (by intro c head; cases head; unfold InWord; decide)
  have comment : Layout ('/' :: '*' :: (['\n'] ++ '*' :: '/' :: [' '])) "\"b\nc".toList :=
    .block (by unfold Unclosed; decide) (.blank (by decide) .nil)
  have unended : Lexeme .error (.text "Unterminated string") "\"b\nc".toList [] :=
    @Lexeme.openQuote ['b', '\n', 'c'] (by decide)
  have laid : Laid [] "a /*\n*/ \"b\nc".toList _ :=
    .token (t := ⟨.identifier, "a", 1, .nil⟩) .nil name
      (.token (t := ⟨.error, "\"b\nc", 2, .text "Unterminated string"⟩) (.blank (by decide) comment)
        unended (@Laid.finish _ _ 3 .nil))
  exact ⟨laid, ((scan_line "a /*\n*/ \"b\nc").2.1 _ laid).2 (by decide)⟩

end Scriptlet.Lexical
