import Scriptlet.Proofs.Grammar.Lines
import Scriptlet.Proofs.Run.Sequence
import Scriptlet.Session.Basic

/-! Running one text is running its parts in a session. Two valid programs with
a line break between them do together what the second does after the first, its
errors being further down; where the first fails the second plays no part. -/
namespace Scriptlet.Session
open Token

def joined : List String → String
  | [] => ""
  | text :: more => text ++ joined more

private theorem joined_append (first more : List String) :
    joined (first ++ more) = joined first ++ joined more := by
  induction first with
  | nil => simp [joined]
  | cons text first ih => rw [List.cons_append, joined, joined, ih, String.append_assoc]

def Event.outText : Event → String
  | .out text => text
  | _ => ""

def Event.errText : Event → String
  | .err text => text
  | _ => ""

def outText (events : List Event) : String := joined (events.map Event.outText)

def errText (events : List Event) : String := joined (events.map Event.errText)

def Verdict.complaint : Verdict → String
  | completed | stuck _ => ""
  | rejected diagnostics => joined (diagnostics.map fun d => d.report ++ "\n")
  | halted error => error.report ++ "\n"

def Verdict.relined (f : Int → Int) : Verdict → Verdict
  | completed => completed
  | rejected diagnostics => rejected (diagnostics.map fun d => { d with line := f d.line })
  | halted error => halted (error.mapTokens (Token.relined f))
  | stuck operator => stuck (operator.relined f)

theorem unnoticed_relined (f : Int → Int) : Unnoticed (relined f) := ⟨fun _ => rfl, fun _ => rfl⟩

@[simp] theorem outText_cons (event : Event) (more : List Event) :
    outText (event :: more) = event.outText ++ outText more := rfl

@[simp] theorem errText_cons (event : Event) (more : List Event) :
    errText (event :: more) = event.errText ++ errText more := rfl

private theorem outText_append (first more : List Event) :
    outText (first ++ more) = outText first ++ outText more := by
  unfold outText
  rw [List.map_append, joined_append]

private theorem errText_append (first more : List Event) :
    errText (first ++ more) = errText first ++ errText more := by
  unfold errText
  rw [List.map_append, joined_append]

private theorem joined_visible {text : Event → String}
    (silent : ∀ channel message, text (.log channel message) = "") (events : List Event) :
    joined ((visible false events).map text) = joined (events.map text) := by
  induction events with
  | nil => rfl
  | cons event more ih =>
    rw [List.map_cons, joined, ← ih]
    cases event with
    | out _ => rfl
    | err _ => rfl
    | log channel message =>
      rw [silent]
      exact String.empty_append.symm

theorem outText_visible (events : List Event) : outText (visible false events) = outText events :=
  joined_visible (fun _ _ => rfl) events

theorem errText_visible (events : List Event) : errText (visible false events) = errText events :=
  joined_visible (fun _ _ => rfl) events

private theorem outText_printed (output : String) : outText (printed output) = output := by
  unfold printed
  split
  · rename_i empty
    rw [String.isEmpty_iff.1 empty]
    rfl
  · simp [Event.outText, outText, joined]

private theorem errText_printed (output : String) : errText (printed output) = "" := by
  unfold printed
  split <;> rfl

def settled (outcome : Outcome) (session : Session) : Turn :=
  let after := { session with globals := outcome.globals }
  match outcome.failure with
  | none => ⟨after, printed outcome.output, .completed⟩
  | some (.raised error) =>
    ⟨{ after with hadRuntimeError := true }, printed outcome.output ++ halted error, .halted error⟩
  | some (.unknownOperator operator) => ⟨after, printed outcome.output, .stuck operator⟩

theorem execute_eq (settings : Settings) (program : List Stmt) (session : Session) :
    execute settings program session =
      settled (interpret settings.depth program session.globals) session := rfl

section Settled
variable (outcome : Outcome) (session : Session)

theorem outText_settled : outText (settled outcome session).events = outcome.output := by
  unfold settled
  dsimp only
  split
  · exact outText_printed _
  · rw [outText_append, outText_printed]
    simp [halted, Event.outText, outText, joined]
  · exact outText_printed _

theorem errText_settled :
    errText (settled outcome session).events = (settled outcome session).verdict.complaint := by
  unfold settled
  dsimp only
  split
  · exact errText_printed _
  · rw [errText_append, errText_printed]
    simp [halted, Event.errText, errText, joined, Verdict.complaint]
  · exact errText_printed _

theorem completed_settled :
    (settled outcome session).verdict = .completed ↔ outcome.failure = none := by
  unfold settled
  dsimp only
  split <;> simp_all

private theorem settled_behind (text : String) (f : Int → Int) :
    (settled ((outcome.mapTokens (relined f)).behind text) session).session =
        (settled outcome session).session ∧
      (settled ((outcome.mapTokens (relined f)).behind text) session).verdict =
        (settled outcome session).verdict.relined f := by
  unfold settled Outcome.mapTokens Outcome.behind
  dsimp only
  cases outcome.failure with
  | none => exact ⟨rfl, rfl⟩
  | some failure => cases failure <;> exact ⟨rfl, rfl⟩

private theorem session_settled {outcome : Outcome} (completed : outcome.failure = none)
    (session : Session) :
    (settled outcome session).session = { session with globals := outcome.globals } := by
  unfold settled
  rw [completed]

end Settled

section Log
variable (tokens : List Token) (program : Parse.Parsed (List Stmt)) (events : List Event)

theorem outText_logged : outText (scanned tokens :: parsed program :: events) = outText events := by
  simp [scanned, parsed, Event.outText]

private theorem errText_logged : errText (scanned tokens :: parsed program :: events) = errText events := by
  simp [scanned, parsed, Event.errText]

private theorem visible_logged :
    visible false (scanned tokens :: parsed program :: events) = visible false events := by
  simp [visible, scanned, parsed, Event.isLog]

end Log

theorem run_valid {settings : Settings} {source : String} {found : List Stmt}
    (valid : Parse.program settings.limits (scan source) = ⟨found, []⟩) (session : Session) :
    run settings false source session =
      { settled (interpret settings.depth found session.globals) session with
        events := scanned (scan source) :: parsed ⟨found, []⟩ ::
          (settled (interpret settings.depth found session.globals) session).events } := by
  have ran : runProgram settings (scan source) session =
      { execute settings found session with
        events := parsed ⟨found, []⟩ :: (execute settings found session).events } := by
    unfold runProgram
    rw [valid]
    rfl
  unfold run
  dsimp only
  rw [if_neg Bool.false_ne_true, ran, execute_eq]

/-- One turn does what two turns do one after the other, the errors of the
second being on other lines. -/
structure Turn.Joins (f : Int → Int) (first second whole : Turn) : Prop where
  session : whole.session = second.session
  verdict : whole.verdict = second.verdict.relined f
  out : outText whole.events = outText first.events ++ outText second.events
  quiet : errText first.events = ""
  complaint : errText second.events = second.verdict.complaint
  err : errText whole.events = (second.verdict.relined f).complaint

/-- One turn does the same as another one, as far as anyone sees. -/
structure Turn.Same (first whole : Turn) : Prop where
  session : whole.session = first.session
  verdict : whole.verdict = first.verdict
  seen : visible false whole.events = visible false first.events

/-- Two valid programs with a line break between them run as the first one and
then the second one would, or as the first one alone where that fails. -/
theorem run_newline (settings : Settings) (first second : String) (session : Session)
    (valid : (Parse.program settings.limits (scan first)).isValid = true)
    (valid' : (Parse.program settings.limits (scan second)).isValid = true) :
    Parse.program settings.limits (scan (first ++ "\n" ++ second)) =
        ⟨(Parse.program settings.limits (scan first)).tree ++
          (Parse.program settings.limits (scan second)).tree.map
            (Stmt.mapTokens (relined (below first))), []⟩ ∧
      ((run settings false first session).verdict = .completed →
        Turn.Joins (below first) (run settings false first session)
          (run settings false second (run settings false first session).session)
          (run settings false (first ++ "\n" ++ second) session)) ∧
      ((run settings false first session).verdict ≠ .completed →
        Turn.Same (run settings false first session)
          (run settings false (first ++ "\n" ++ second) session)) := by
  have alone := Grammar.eq_of_isValid valid
  have later := Grammar.eq_of_isValid valid'
  have whole := Grammar.program_newline alone later
  refine ⟨whole, ?_⟩
  generalize (Parse.program settings.limits (scan first)).tree = found at alone whole
  generalize (Parse.program settings.limits (scan second)).tree = more at later whole
  have sequence := interpret_append (unnoticed_relined (below first)) settings.depth found more
    session.globals
  rw [run_valid alone, run_valid whole, run_valid later, sequence]
  generalize interpret settings.depth found session.globals = begun
  dsimp only
  constructor
  · intro completed
    have unfailed := (completed_settled begun session).1 completed
    rw [session_settled unfailed, unfailed]
    dsimp only [Option.isSome_none]
    rw [if_neg Bool.false_ne_true]
    generalize interpret settings.depth more begun.globals = ended
    have moved := settled_behind ended session begun.output (below first)
    constructor
    case session => exact moved.1
    case verdict => exact moved.2
    case out =>
      simp only [outText_logged, outText_settled]
      rfl
    case quiet =>
      rw [errText_logged, errText_settled, completed]
      rfl
    case complaint => exact (errText_logged _ _ _).trans (errText_settled _ _)
    case err => rw [errText_logged, errText_settled, moved.2]; rfl
  · intro failed
    -- the second program is not run, so the turns differ in their logs only
    have unended : begun.failure.isSome = true := by
      rw [Option.isSome_iff_ne_none]
      exact fun none_failed => failed ((completed_settled begun session).2 none_failed)
    rw [if_pos unended]
    exact ⟨rfl, rfl, by simp only [visible_logged]⟩

/-- A program that completes before one that fails, and the other way round. -/
theorem run_newline_failing :
    Turn.Joins (below "var a;\nprint a;") (run .standard false "var a;\nprint a;" .fresh)
        (run .standard false "print -a;" (run .standard false "var a;\nprint a;" .fresh).session)
        (run .standard false ("var a;\nprint a;" ++ "\n" ++ "print -a;") .fresh) ∧
      Turn.Same (run .standard false "print b;" .fresh)
        (run .standard false ("print b;" ++ "\n" ++ "var a;") .fresh) := by
  have joins := run_newline .standard "var a;\nprint a;" "print -a;" .fresh (by decide +kernel)
    (by decide +kernel)
  have same := run_newline .standard "print b;" "var a;" .fresh (by decide +kernel)
    (by decide +kernel)
  exact ⟨joins.2.1 (by decide +kernel), same.2.2 (by decide +kernel)⟩

example :
    (run .standard false "var a;\nprint a;\nprint -a;" .fresh).verdict =
      .halted (.operandNotNumber ⟨.minus, "-", 3, .nil⟩) := by decide +kernel

end Scriptlet.Session
