import Scriptlet.Session.Basic
import Scriptlet.Proofs.Session.Anchored

/-! A prompt session is the fold of its lines. The input is cut behind each newline, and the
lines before the first one that says quit run one after the other, each behind an invitation;
what follows that line is left unread. A turn depends on the session before it through the
global variables alone, so the marks that an error leaves play no part in what is done with
the next line, and that they are taken away in between cannot be seen. -/
namespace Scriptlet

namespace Text

/-- The lines of a text, each with its newline, which only the last one may lack. -/
def lines : List Char → List (List Char)
  | [] => []
  | c :: rest =>
    if c = '\n' then [c] :: lines rest
    else match lines rest with
      | [] => [[c]]
      | line :: more => (c :: line) :: more

/-- Lines as they follow each other in a text: no newline but the one at the end of a line,
and only the last line may be without it. -/
inductive Lined : List (List Char) → Prop
  | nil : Lined []
  | last {body : List Char} : body ≠ [] → '\n' ∉ body → Lined [body]
  | line {body : List Char} {more : List (List Char)} : '\n' ∉ body → Lined more →
      Lined ((body ++ ['\n']) :: more)

private theorem lines_newline (rest : List Char) : lines ('\n' :: rest) = ['\n'] :: lines rest :=
  if_pos rfl

theorem lines_cons {c : Char} (inside : c ≠ '\n') {rest line : List Char}
    {more : List (List Char)} (begun : lines rest = line :: more) :
    lines (c :: rest) = (c :: line) :: more := by
  rw [lines, if_neg inside, begun]

private theorem lines_last {c : Char} (inside : c ≠ '\n') {rest : List Char} (empty : lines rest = []) :
    lines (c :: rest) = [[c]] := by
  rw [lines, if_neg inside, empty]

private theorem flatten_lines (text : List Char) : (lines text).flatten = text := by
  induction text with
  | nil => rfl
  | cons c rest ih =>
    by_cases newline : c = '\n'
    · subst newline
      simp [lines_newline, ih]
    · cases begun : lines rest with
      | nil =>
        rw [begun] at ih
        rw [lines_last newline begun, ← ih]
        rfl
      | cons line more =>
        rw [begun] at ih
        simpa [lines_cons newline begun] using ih

private theorem lined_lines (text : List Char) : Lined (lines text) := by
  induction text with
  | nil => exact .nil
  | cons c rest ih =>
    by_cases newline : c = '\n'
    · subst newline
      rw [lines_newline]
      exact @Lined.line [] _ (by simp) ih
    · cases begun : lines rest with
      | nil =>
        rw [lines_last newline begun]
        exact .last (by simp) (by simpa using Ne.symm newline)
      | cons line more =>
        rw [lines_cons newline begun]
        rw [begun] at ih
        cases ih with
        | last _ clear => exact .last (by simp) (by simp [clear, Ne.symm newline])
        | @line body _ clear later =>
          exact @Lined.line (c :: body) _ (by simp [clear, Ne.symm newline]) later

private theorem lines_ended {body : List Char} (clear : '\n' ∉ body) (rest : List Char) :
    lines (body ++ '\n' :: rest) = (body ++ ['\n']) :: lines rest := by
  induction body with
  | nil => exact lines_newline rest
  | cons c body ih =>
    obtain ⟨other, clear⟩ := not_or.1 (mt List.mem_cons.2 clear)
    exact lines_cons (Ne.symm other) (ih clear)

private theorem lines_unended {body : List Char} (more : body ≠ []) (clear : '\n' ∉ body) :
    lines body = [body] := by
  induction body with
  | nil => exact absurd rfl more
  | cons c body ih =>
    obtain ⟨other, clear⟩ := not_or.1 (mt List.mem_cons.2 clear)
    by_cases empty : body = []
    · subst empty
      exact lines_last (Ne.symm other) rfl
    · exact lines_cons (Ne.symm other) (ih empty clear)

private theorem lines_flatten {split : List (List Char)} (lined : Lined split) :
    lines split.flatten = split := by
  induction lined with
  | nil => rfl
  | last more clear => simpa using lines_unended more clear
  | @line body more clear _ ih =>
    rw [List.flatten_cons, List.append_assoc, List.singleton_append, lines_ended clear, ih]

theorem lines_eq_iff {text : List Char} {split : List (List Char)} :
    lines text = split ↔ Lined split ∧ split.flatten = text := by
  constructor
  · rintro rfl
    exact ⟨lined_lines text, flatten_lines text⟩
  · rintro ⟨lined, rfl⟩
    exact lines_flatten lined

theorem lines_splitLine {text : List Char} (more : text ≠ []) :
    lines text = (splitLine text).1 :: lines (splitLine text).2 := by
  fun_induction splitLine text with
  | case1 => exact absurd rfl more
  | case2 rest => exact lines_newline rest
  | case3 c rest inside line after split ih =>
    have newline : c ≠ '\n' := fun same => inside same
    by_cases empty : rest = []
    · subst empty
      cases split
      exact lines_last newline rfl
    · have begun := ih empty
      rw [split] at begun
      exact lines_cons newline begun

end Text

namespace Session
open Token

/-- Turns that differ in no more than the marks of their sessions. -/
structure Turn.Unmarked (turn turn' : Turn) : Prop where
  globals : turn.session.globals = turn'.session.globals
  events : turn.events = turn'.events
  verdict : turn.verdict = turn'.verdict

section Unmarked
variable {session session' : Session} (same : session.globals = session'.globals)

theorem Turn.Unmarked.logged {turn turn' : Turn} (alike : turn.Unmarked turn') (event : Event) :
    Turn.Unmarked { turn with events := event :: turn.events }
      { turn' with events := event :: turn'.events } :=
  ⟨alike.globals, congrArg (event :: ·) alike.events, alike.verdict⟩

private theorem unmarked_settled (outcome : Outcome) (session session' : Session) :
    (settled outcome session).Unmarked (settled outcome session') := by
  unfold settled
  dsimp only
  split <;> exact ⟨rfl, rfl, rfl⟩

include same

private theorem unmarked_execute (settings : Settings) (program : List Stmt) :
    (execute settings program session).Unmarked (execute settings program session') := by
  rw [execute_eq, execute_eq, same]
  exact unmarked_settled _ session session'

private theorem unmarked_runProgram (settings : Settings) (tokens : List Token) :
    (runProgram settings tokens session).Unmarked (runProgram settings tokens session') := by
  unfold runProgram
  dsimp only
  split
  · exact (unmarked_execute same settings _).logged _
  · exact ⟨same, rfl, rfl⟩

private theorem unmarked_runInteractive (settings : Settings) (tokens : List Token) :
    (runInteractive settings tokens session).Unmarked
      (runInteractive settings tokens session') := by
  unfold runInteractive
  split
  · exact (unmarked_execute same settings _).logged _
  · exact unmarked_runProgram same settings tokens

/-- What a text does depends on the session before it through the global variables alone. -/
theorem unmarked_run (settings : Settings) (interactive : Bool) (source : String) :
    (run settings interactive source session).Unmarked
      (run settings interactive source session') := by
  unfold run
  dsimp only
  refine Turn.Unmarked.logged ?_ _
  split
  · exact unmarked_runInteractive same settings _
  · exact unmarked_runProgram same settings _

end Unmarked

def sessionBehind (settings : Settings) (inputs : List (Bool × String)) (session : Session) :
    Session :=
  inputs.foldl (fun session input => (run settings input.1 input.2 session).session) session

private theorem unmarked_turns (settings : Settings) (inputs : List (Bool × String))
    {session session' : Session} (same : session.globals = session'.globals) :
    (turns settings inputs session).map Turn.events =
        (turns settings inputs session').map Turn.events ∧
      (sessionBehind settings inputs session).globals =
        (sessionBehind settings inputs session').globals := by
  induction inputs generalizing session session' with
  | nil => exact ⟨rfl, same⟩
  | cons input more ih =>
    obtain ⟨interactive, source⟩ := input
    have first := unmarked_run same settings interactive source
    obtain ⟨events, globals⟩ := ih first.globals
    refine ⟨?_, globals⟩
    simp only [turns, List.map_cons, first.events, events]

section Converse
variable {settings : Settings} {input : List Char} {session : Session}

private theorem converse_ended (ends : answer? settings (Text.splitLine input).1 session = none) :
    converse settings input session =
      ⟨session, [invitation, farewell], (Text.splitLine input).2, none⟩ := by
  rw [converse.eq_def]
  split
  · rfl
  · rename_i answered
    rw [ends] at answered
    cases answered

private theorem converse_next {turn : Turn}
    (answers : answer? settings (Text.splitLine input).1 session = some turn)
    (unstuck : turn.stuck? = none) :
    converse settings input session =
      { converse settings (Text.splitLine input).2 turn.session with
        events := invitation :: turn.events ++
          (converse settings (Text.splitLine input).2 turn.session).events } := by
  rw [converse.eq_def]
  split
  · rename_i ended
    rw [answers] at ended
    cases ended
  · rename_i answered
    rw [answers] at answered
    cases answered
    split
    · rename_i stuck
      rw [unstuck] at stuck
      cases stuck
    · rfl

end Converse

/-- The lines that a prompt session runs, each as a text of its own. -/
def answered (split : List (List Char)) : List (Bool × String) :=
  (split.takeWhile (!isQuit ·)).map fun line => (true, String.ofList line)

def freshWith (globals : Frame) : Session := { Session.fresh with globals := globals }

/-- A prompt session as the fold of the lines of its input. -/
structure Retold (settings : Settings) (split : List (List Char)) (begun : Session)
    (held : Conversation) : Prop where
  events : held.events =
    ((turns settings (answered split) begun).map Turn.events).flatMap (invitation :: ·) ++
      [invitation, farewell]
  session : held.session = freshWith (sessionBehind settings (answered split) begun).globals
  unread : held.unread = (split.dropWhile (!isQuit ·)).tail.flatten
  unstuck : held.stuck = none

section Fold
variable {settings : Settings} {more : List (List Char)} {line : List Char} {globals : Frame}

private theorem answered_quit (quits : isQuit line = true) : answered (line :: more) = [] := by
  simp [answered, quits]

private theorem answered_cons (runs : isQuit line = false) :
    answered (line :: more) = (true, String.ofList line) :: answered more := by
  simp [answered, runs]

private theorem stuck?_run (settings : Settings) (interactive : Bool) (source : String)
    (session : Session) : (run settings interactive source session).stuck? = none := by
  have unstuck := (anchored_run settings interactive source session).unstuck
  unfold Turn.stuck?
  split
  · rename_i operator verdict
    exact absurd verdict (unstuck operator)
  · rfl

private theorem retold_quit (quits : isQuit line = true) :
    Retold settings (line :: more) (freshWith globals)
      ⟨freshWith globals, [invitation, farewell], more.flatten, none⟩ := by
  refine ⟨?_, ?_, ?_, rfl⟩
  · rw [answered_quit quits]
    rfl
  · rw [answered_quit quits]
    rfl
  · simp [quits]

theorem Retold.next {held : Conversation} {turn : Turn} (runs : isQuit line = false)
    (ran : turn = run settings true (String.ofList line) (freshWith globals))
    (later : Retold settings more (freshWith turn.session.globals) held) :
    Retold settings (line :: more) (freshWith globals)
      { held with events := invitation :: turn.events ++ held.events } := by
  -- the marks that the turn sets are not seen by the turns behind it
  have same : turn.session.globals = (freshWith turn.session.globals).globals := rfl
  obtain ⟨events, behind⟩ := unmarked_turns settings (answered more) same
  refine ⟨?_, ?_, ?_, later.unstuck⟩
  · rw [answered_cons runs, turns, ← ran]
    simp [later.events, events]
  · rw [answered_cons runs, sessionBehind, List.foldl_cons, ← ran]
    exact later.session.trans (congrArg freshWith behind.symm)
  · simpa [runs] using later.unread

private theorem converse_line {input : List Char} (first : (Text.splitLine input).1 = line)
    (some_line : line ≠ []) (runs : isQuit line = false) :
    converse settings input (freshWith globals) =
      let turn := run settings true (String.ofList line) (freshWith globals)
      let later := converse settings (Text.splitLine input).2 (freshWith turn.session.globals)
      { later with events := invitation :: turn.events ++ later.events } := by
  have answers : answer? settings (Text.splitLine input).1 (freshWith globals) =
      some (runLine settings line (freshWith globals)) := by
    simp [answer?, first, runs, some_line]
  exact converse_next answers (stuck?_run settings true _ _)

private theorem retold_converse (settings : Settings) (input : List Char) (globals : Frame) :
    Retold settings (Text.lines input) (freshWith globals)
      (converse settings input (freshWith globals)) := by
  induction cut : Text.lines input generalizing input globals with
  | nil =>
    have empty : input = [] := by rw [← Text.flatten_lines input, cut]; rfl
    subst empty
    rw [converse_ended rfl]
    exact ⟨rfl, rfl, rfl, rfl⟩
  | cons line more ih =>
    have some_input : input ≠ [] := by
      rintro rfl
      cases cut
    have parts := Text.lines_splitLine some_input
    rw [cut, List.cons.injEq] at parts
    obtain ⟨first, rest⟩ := parts
    cases quits : isQuit line with
    | true =>
      have ends : answer? settings (Text.splitLine input).1 (freshWith globals) = none := by
        simp [answer?, ← first, quits]
      have unread : (Text.splitLine input).2 = more.flatten := by rw [rest, Text.flatten_lines]
      rw [converse_ended ends, unread]
      exact retold_quit quits
    | false =>
      have some_line : line ≠ [] := by
        obtain ⟨c, behind, rfl⟩ := List.exists_cons_of_ne_nil some_input
        exact first ▸ Text.splitLine_ne c behind
      rw [converse_line first.symm some_line quits]
      exact Retold.next quits rfl (ih _ _ rest.symm)

end Fold

/-- The statements that a line of a prompt session runs: a single expression is printed. -/
def statementsOf (settings : Settings) (source : String) : List Stmt :=
  match (Parse.bareExpression settings.limits (scan source)).tree with
  | some value => [.print value]
  | none => (Parse.program settings.limits (scan source)).tree

/-- What a line that ends with an error has done to the global variables: nothing where it is
rejected, and otherwise what its statements do up to the one that fails. -/
structure Turn.Confined (settings : Settings) (source : String) (session : Session)
    (turn : Turn) : Prop where
  rejected : ∀ diagnostics, turn.verdict = .rejected diagnostics →
    turn.session.globals = session.globals
  halted : ∀ error, turn.verdict = .halted error → ∃ before culprit behind,
    statementsOf settings source = before ++ culprit :: behind ∧
      (interpret settings.depth before session.globals).failure = none ∧
      (interpret settings.depth (before ++ [culprit]) session.globals).failure =
        some (.raised error) ∧
      turn.session.globals =
        (interpret settings.depth (before ++ [culprit]) session.globals).globals

section Errors
variable {settings : Settings} {source : String} {session : Session}

theorem Turn.Confined.logged {turn : Turn} (confined : turn.Confined settings source session)
    (event : Event) :
    Turn.Confined settings source session { turn with events := event :: turn.events } :=
  ⟨confined.rejected, confined.halted⟩

private theorem globals_settled (outcome : Outcome) (session : Session) :
    (settled outcome session).session.globals = outcome.globals := by
  unfold settled
  dsimp only
  split <;> rfl

private theorem failure_of_halted {outcome : Outcome} {error : RuntimeError}
    (halted : (settled outcome session).verdict = .halted error) :
    outcome.failure = some (.raised error) := by
  unfold settled at halted
  dsimp only at halted
  split at halted
  · cases halted
  · rename_i failed
    cases halted
    exact failed
  · cases halted

private theorem unrejected_settled (outcome : Outcome) (session : Session)
    (diagnostics : List Diagnostic) :
    (settled outcome session).verdict ≠ .rejected diagnostics := by
  unfold settled
  dsimp only
  split <;> simp

private theorem confined_execute (session : Session) :
    (execute settings (statementsOf settings source) session).Confined settings source session := by
  rw [execute_eq]
  refine ⟨fun diagnostics rejected => absurd rejected (unrejected_settled _ _ _), ?_⟩
  intro error halted
  have failed := failure_of_halted halted
  obtain ⟨before, culprit, behind, whole, completed, same⟩ := interpret_failed failed
  refine ⟨before, culprit, behind, whole, completed, ?_, ?_⟩
  · rw [same, failed]
  · rw [globals_settled, same]

private theorem confined_runInteractive (settings : Settings) (source : String) (session : Session) :
    (runInteractive settings (scan source) session).Confined settings source session := by
  have executed : (execute settings (statementsOf settings source) session).Confined settings
      source session := confined_execute session
  unfold statementsOf at executed
  unfold runInteractive runProgram
  cases found : (Parse.bareExpression settings.limits (scan source)).tree with
  | some value =>
    rw [found] at executed
    exact executed.logged _
  | none =>
    rw [found] at executed
    dsimp only
    split
    · exact executed.logged _
    · exact ⟨fun _ _ => rfl, fun error halted => by cases halted⟩

end Errors

/-- A prompt session does with its input what the lines of it do, one after the other, up to
the first one that says quit. What one of them does depends on the global variables alone, to
which an erroneous line before it has done no more than its statements did. -/
theorem converse_retold (settings : Settings) (input : List Char) :
    (∀ split, Text.lines input = split ↔ Text.Lined split ∧ split.flatten = input) ∧
    (∀ globals, Retold settings (Text.lines input) (freshWith globals)
      (converse settings input (freshWith globals))) ∧
    (∀ (interactive : Bool) (source : String) (session session' : Session),
      session.globals = session'.globals →
        (run settings interactive source session).Unmarked
          (run settings interactive source session')) ∧
    ∀ (source : String) (session : Session),
      (run settings true source session).Confined settings source session :=
  ⟨fun _ => Text.lines_eq_iff, retold_converse settings input,
    fun interactive source _ _ same => unmarked_run same settings interactive source,
    fun source session => (confined_runInteractive settings source session).logged _⟩

/-- A declaration, two erroneous lines, an expression, and a line that says quit. -/
theorem converse_retold_quit :
    let input := "var a = \"x\";\nprint b;\na = \na + 1\n\tquit \nprint a;".toList
    let held := converse .standard input .fresh
    held.unread = "print a;".toList ∧
      held.session = freshWith (Frame.empty.define "a" (.text "x")) ∧
      outText held.events = "> > > > x1\n> Bye.\n" ∧
      errText held.events = "Undefined variable 'b'.\n[line 1]\n" ++
        "[line 2] Error at end: Expected expression\n" ∧
      (run .standard true "b" held.session).events =
        (run .standard true "b" { held.session with hadRuntimeError := true }).events := by
  intro input held
  have folded : Retold .standard (Text.lines input) .fresh held :=
    (converse_retold .standard input).2.1 .empty
  refine ⟨?_, ?_, ?_, ?_, ?_⟩
  · rw [folded.unread]
    decide +kernel
  · rw [folded.session]
    decide +kernel
  · rw [folded.events]
    decide +kernel
  · rw [folded.events]
    decide +kernel
  · exact ((converse_retold .standard input).2.2.1 true "b" held.session
      { held.session with hadRuntimeError := true } rfl).events

end Session

end Scriptlet
