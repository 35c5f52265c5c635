import Scriptlet.CommandLine
import Scriptlet.Proofs.Session.Anchored
import Scriptlet.Proofs.Session.Rejected

/-! The exit status of a script. It tells a text with syntax errors, a program that
failed, one that ended and bytes that are no text apart, and for each of them what the
two streams hold: the reports of a parse and nothing printed, or what was printed up
to the one error and its report. -/
namespace Scriptlet
namespace Session

structure Turn.Marked (turn : Turn) : Prop where
  error : turn.session.hadError = true ↔ ∃ diagnostics, turn.verdict = .rejected diagnostics
  runtimeError : turn.session.hadRuntimeError = true ↔ ∃ error, turn.verdict = .halted error

section Marks
variable {session : Session}

private theorem marked_settled (outcome : Outcome) (noError : session.hadError = false)
    (noRuntimeError : session.hadRuntimeError = false) : (settled outcome session).Marked := by
  unfold settled
  dsimp only
  split
  · exact ⟨by simp [noError], by simp [noRuntimeError]⟩
  · exact ⟨by simp [noError], by simp⟩
  · exact ⟨by simp [noError], by simp [noRuntimeError]⟩

theorem Turn.Marked.logged {turn : Turn} (marked : turn.Marked) (event : Event) :
    Turn.Marked { turn with events := event :: turn.events } := ⟨marked.1, marked.2⟩

variable (settings : Settings)

private theorem marked_runProgram (tokens : List Token) (noError : session.hadError = false)
    (noRuntimeError : session.hadRuntimeError = false) :
    (runProgram settings tokens session).Marked := by
  unfold runProgram
  dsimp only
  split
  · exact (marked_settled _ noError noRuntimeError).logged _
  · exact ⟨by simp, by simp [noRuntimeError]⟩

theorem marked_run (interactive : Bool) (source : String) (noError : session.hadError = false)
    (noRuntimeError : session.hadRuntimeError = false) :
    (run settings interactive source session).Marked := by
  have program := marked_runProgram settings (Token.scan source) noError noRuntimeError
  unfold run
  dsimp only
  refine Turn.Marked.logged ?_ _
  split
  · unfold runInteractive
    split
    · exact (marked_settled _ noError noRuntimeError).logged _
    · exact program
  · exact program

end Marks

end Session

namespace CommandLine
open Session

theorem decode?_toUTF8 (text : String) :
    decode? text.toUTF8 = some (String.ofList (Text.unified text.toList)) := by
  have decoded : String.fromUTF8? text.toUTF8 = some text := dif_pos text.isValidUTF8
  unfold decode?
  rw [decoded]
  rfl

theorem decode?_eq_none {bytes : ByteArray} (undecodable : ∀ text : String, text.toUTF8 ≠ bytes) :
    decode? bytes = none := by
  unfold decode? String.fromUTF8?
  split
  · rename_i valid
    exact absurd rfl (undecodable (String.fromUTF8 bytes valid))
  · rfl

def Report.Exits (report : Report) (code : Nat) : Prop :=
  ∃ status, report.ending = .exit status ∧ status.code = code

private theorem Report.exits_iff {report : Report} {status : Status} (ended : report.ending = .exit status)
    (code : Nat) : report.Exits code ↔ status.code = code := by
  constructor
  · rintro ⟨other, same, rfl⟩
    rw [ended] at same
    rw [Ending.exit.inj same]
  · exact fun same => ⟨status, ended, same⟩

def faults (settings : Settings) (source : String) : List Diagnostic :=
  (Parse.program settings.limits (Token.scan source)).diagnostics

/-- What the statements of a text do when no variable has a value. -/
def outcome (settings : Settings) (source : String) : Outcome :=
  interpret settings.depth (Parse.program settings.limits (Token.scan source)).tree .empty

/-- The text is a program, and running it raises this error. -/
structure Raises (settings : Settings) (source : String) (error : RuntimeError) : Prop where
  valid : faults settings source = []
  failed : (outcome settings source).failure = some (.raised error)

/-- The turn of a session in which a script is the only text. -/
def scriptTurn (settings : Settings) (source : String) : Turn :=
  Session.run settings false source .fresh

/-- The exit status of a report tells what happened to a text, and its streams hold that
and nothing else. -/
structure Truthful (settings : Settings) (source : String) (report : Report) : Prop where
  invalid : report.Exits 65 ↔ faults settings source ≠ []
  failed : report.Exits 70 ↔ ∃ error, Raises settings source error
  completed : report.Exits 0 ↔
    faults settings source = [] ∧ ¬ ∃ error, Raises settings source error
  ended : report.Exits 65 ∨ report.Exits 70 ∨ report.Exits 0
  listed : report.Exits 65 → outText report.events = "" ∧
    errText report.events = joined ((faults settings source).map fun d => d.report ++ "\n")
  stopped : ∀ error, Raises settings source error →
    outText report.events = (outcome settings source).output ∧
      errText report.events = error.report ++ "\n"
  quiet : report.Exits 0 →
    outText report.events = (outcome settings source).output ∧ errText report.events = ""

/-- The marks of the session agree with the exit status, and what is marked as an error
has run nothing or no more than the statements up to the one that failed. -/
structure Marks (settings : Settings) (source : String) (report : Report) : Prop where
  error : (scriptTurn settings source).session.hadError = true ↔ report.Exits 65
  runtimeError : (scriptTurn settings source).session.hadRuntimeError = true ↔ report.Exits 70
  apart : ¬ ((scriptTurn settings source).session.hadError = true ∧
    (scriptTurn settings source).session.hadRuntimeError = true)
  unexecuted : report.Exits 65 →
    (scriptTurn settings source).session = { Session.fresh with hadError := true }
  unreached : report.Exits 70 → ∃ before culprit behind,
    (Parse.program settings.limits (Token.scan source)).tree = before ++ culprit :: behind ∧
      (interpret settings.depth before .empty).failure = none ∧
      interpret settings.depth (before ++ [culprit]) .empty = outcome settings source

section Script
variable (settings : Settings) (source : String)

def shown : Report :=
  { runSource settings source with events := visible false (runSource settings source).events }

private theorem outText_shown :
    outText (shown settings source).events = outText (scriptTurn settings source).events :=
  outText_visible _

private theorem errText_shown :
    errText (shown settings source).events = (scriptTurn settings source).verdict.complaint :=
  (errText_visible _).trans (anchored_run settings false source .fresh).complaint

private theorem ending_shown :
    (shown settings source).ending = ending (scriptTurn settings source).verdict := rfl

variable {settings source}

private theorem exits_shown {verdict : Verdict} {status : Status} (ended : ending verdict = .exit status)
    (turned : (scriptTurn settings source).verdict = verdict) (code : Nat) :
    (shown settings source).Exits code ↔ status.code = code := by
  rw [← turned] at ended
  exact Report.exits_iff ((ending_shown settings source).trans ended) code

private theorem scriptTurn_invalid (some_fault : faults settings source ≠ []) :
    (scriptTurn settings source).session = { Session.fresh with hadError := true } ∧
      (scriptTurn settings source).verdict = .rejected (faults settings source) ∧
      outText (scriptTurn settings source).events = "" := by
  have invalid : (Parse.program settings.limits (Token.scan source)).isValid = false :=
    Bool.eq_false_iff.2 fun valid => some_fault (List.isEmpty_iff.1 valid)
  have ran := run_invalid invalid .fresh
  unfold scriptTurn
  rw [ran]
  exact ⟨rfl, rfl, (outText_cons _ _).trans (String.empty_append.trans (outText_rejected _ _))⟩

private theorem scriptTurn_valid (valid : faults settings source = []) :
    (scriptTurn settings source).verdict =
        (settled (outcome settings source) .fresh).verdict ∧
      outText (scriptTurn settings source).events = (outcome settings source).output := by
  have ran := run_valid (Grammar.eq_of_isValid (List.isEmpty_iff.2 valid)) .fresh
  unfold scriptTurn
  rw [ran]
  exact ⟨rfl, (outText_logged _ _ _).trans (outText_settled _ _)⟩

/-- A program fails with an error only, as no parse makes an operator without a meaning. -/
theorem raised_of_failure (valid : faults settings source = []) {failure : Failure}
    (failed : (outcome settings source).failure = some failure) :
    ∃ error, failure = .raised error := by
  cases failure with
  | raised error => exact ⟨error, rfl⟩
  | unknownOperator operator =>
    refine absurd ?_ ((anchored_run settings false source .fresh).unstuck operator)
    refine (scriptTurn_valid valid).1.trans ?_
    unfold settled
    rw [failed]

private theorem truthful_invalid (some_fault : faults settings source ≠ []) :
    Truthful settings source (shown settings source) := by
  obtain ⟨-, verdict, silent⟩ := scriptTurn_invalid some_fault
  have exits := exits_shown rfl verdict
  have none_raised : ∀ error, ¬ Raises settings source error := fun _ raises =>
    some_fault raises.valid
  constructor
  case invalid => exact (exits 65).trans (iff_of_true rfl some_fault)
  case failed =>
    exact (exits 70).trans (iff_of_false (by decide) fun ⟨_, raises⟩ => none_raised _ raises)
  case completed => exact (exits 0).trans (iff_of_false (by decide) fun valid => some_fault valid.1)
  case ended => exact .inl ((exits 65).2 rfl)
  case listed =>
    intro _
    rw [outText_shown, errText_shown, verdict]
    exact ⟨silent, rfl⟩
  case stopped => exact fun error raises => absurd raises (none_raised error)
  case quiet => exact fun ended => absurd ((exits 0).1 ended) (by decide)

private theorem truthful_raised {error : RuntimeError} (raises : Raises settings source error) :
    Truthful settings source (shown settings source) := by
  obtain ⟨verdict, printed⟩ := scriptTurn_valid raises.valid
  have halted : (settled (outcome settings source) .fresh).verdict = .halted error := by
    unfold settled
    rw [raises.failed]
  rw [halted] at verdict
  have exits := exits_shown rfl verdict
  constructor
  case invalid =>
    exact (exits 65).trans (iff_of_false (by decide) fun faulty => faulty raises.valid)
  case failed => exact (exits 70).trans (iff_of_true rfl ⟨error, raises⟩)
  case completed =>
    exact (exits 0).trans (iff_of_false (by decide) fun neither => neither.2 ⟨error, raises⟩)
  case ended => exact .inr (.inl ((exits 70).2 rfl))
  case listed => exact fun ended => absurd ((exits 65).1 ended) (by decide)
  case stopped =>
    intro other raises'
    have same : error = other :=
      Failure.raised.inj (Option.some.inj (raises.failed.symm.trans raises'.failed))
    rw [outText_shown, errText_shown, verdict, printed, same]
    exact ⟨rfl, rfl⟩
  case quiet => exact fun ended => absurd ((exits 0).1 ended) (by decide)

private theorem truthful_completed (valid : faults settings source = [])
    (unfailed : (outcome settings source).failure = none) :
    Truthful settings source (shown settings source) := by
  obtain ⟨verdict, printed⟩ := scriptTurn_valid valid
  rw [(completed_settled _ _).2 unfailed] at verdict
  have exits := exits_shown rfl verdict
  have none_raised : ∀ error, ¬ Raises settings source error := fun error raises => by
    rw [raises.failed] at unfailed
    cases unfailed
  constructor
  case invalid => exact (exits 65).trans (iff_of_false (by decide) fun faulty => faulty valid)
  case failed =>
    exact (exits 70).trans (iff_of_false (by decide) fun ⟨_, raises⟩ => none_raised _ raises)
  case completed =>
    exact (exits 0).trans (iff_of_true rfl ⟨valid, fun ⟨_, raises⟩ => none_raised _ raises⟩)
  case ended => exact .inr (.inr ((exits 0).2 rfl))
  case listed => exact fun ended => absurd ((exits 65).1 ended) (by decide)
  case stopped => exact fun error raises => absurd raises (none_raised error)
  case quiet =>
    intro _
    rw [outText_shown, errText_shown, verdict, printed]
    exact ⟨rfl, rfl⟩

private theorem exits_invalid : (shown settings source).Exits 65 ↔
    ∃ diagnostics, (scriptTurn settings source).verdict = .rejected diagnostics := by
  unfold Report.Exits
  rw [ending_shown]
  cases (scriptTurn settings source).verdict <;> simp [ending, Status.code]

private theorem exits_failed : (shown settings source).Exits 70 ↔
    ∃ error, (scriptTurn settings source).verdict = .halted error := by
  unfold Report.Exits
  rw [ending_shown]
  cases (scriptTurn settings source).verdict <;> simp [ending, Status.code]

end Script

private theorem truthful_shown (settings : Settings) (source : String) :
    Truthful settings source (shown settings source) := by
  by_cases valid : faults settings source = []
  · cases ended : (outcome settings source).failure with
    | none => exact truthful_completed valid ended
    | some failure =>
      obtain ⟨error, rfl⟩ := raised_of_failure valid ended
      exact truthful_raised ⟨valid, ended⟩
  · exact truthful_invalid valid

private theorem marks_shown (settings : Settings) (source : String) :
    Marks settings source (shown settings source) := by
  have truthful := truthful_shown settings source
  have marked : (scriptTurn settings source).Marked := marked_run settings false source rfl rfl
  constructor
  case error => exact marked.error.trans exits_invalid.symm
  case runtimeError => exact marked.runtimeError.trans exits_failed.symm
  case apart =>
    rintro ⟨error, runtimeError⟩
    obtain ⟨diagnostics, rejected⟩ := marked.error.1 error
    obtain ⟨raised, halted⟩ := marked.runtimeError.1 runtimeError
    rw [rejected] at halted
    cases halted
  case unexecuted =>
    exact fun ended => (scriptTurn_invalid (truthful.invalid.1 ended)).1
  case unreached =>
    intro ended
    obtain ⟨error, raises⟩ := truthful.failed.1 ended
    exact interpret_failed raises.failed

theorem run_script {settings : Settings} {program path : String} {files : Files}
    {input : String} {bytes : ByteArray} (given : files.read path = .ok bytes) :
    run settings [program, path] none files input =
      match decode? bytes with
      | none => unreadable (files.undecodable bytes)
      | some source => shown settings source := by
  have content : runScript settings files path =
      match decode? bytes with
      | none => unreadable (files.undecodable bytes)
      | some source => runSource settings source := by
    cases text : decode? bytes <;> simp only [runScript, given, text]
  unfold run showLog task
  dsimp only
  rw [content]
  cases decode? bytes <;> rfl

/-- Whatever the content of a script, the exit status tells what happened to its text, or
that it has none, and the streams hold what that says and nothing else. -/
theorem run_truthful (settings : Settings) (program path : String) (files : Files)
    (input : String) {bytes : ByteArray} (given : files.read path = .ok bytes) :
    (∀ text : String, text.toUTF8 = bytes →
      Truthful settings (String.ofList (Text.unified text.toList))
          (run settings [program, path] none files input) ∧
        Marks settings (String.ofList (Text.unified text.toList))
          (run settings [program, path] none files input)) ∧
    ((∀ text : String, text.toUTF8 ≠ bytes) →
      (run settings [program, path] none files input).Exits 66 ∧
        (run settings [program, path] none files input).events =
          [.err ("Error reading file: " ++ files.undecodable bytes ++ "\n")]) := by
  rw [run_script given]
  constructor
  · rintro text rfl
    rw [decode?_toUTF8]
    exact ⟨truthful_shown settings _, marks_shown settings _⟩
  · intro undecodable
    rw [decode?_eq_none undecodable]
    exact ⟨⟨.unreadable, rfl, rfl⟩, rfl⟩

/-- A script that prints and then fails behind a carriage return, and a byte that no
text has. -/
theorem run_truthful_halted :
    let files : Files :=
      ⟨fun path => if path = "a" then .ok "print 1;\rprint -nil;".toUTF8 else .ok ⟨#[0xFF]⟩,
        fun _ => "'utf-8' codec can't decode byte 0xff in position 0: invalid start byte"⟩
    ((run .standard ["lox", "a"] none files "").Exits 70 ∧
        outText (run .standard ["lox", "a"] none files "").events = "1\n" ∧
        errText (run .standard ["lox", "a"] none files "").events =
          "Operand must be a number.\n[line 2]\n") ∧
      (run .standard ["lox", "b"] none files "").Exits 66 ∧
        outText (run .standard ["lox", "b"] none files "").events = "" := by
  intro files
  have decoded := (run_truthful .standard "lox" "a" files "" rfl).1 _ rfl
  have raises : Raises .standard (String.ofList (Text.unified "print 1;\rprint -nil;".toList))
      (.operandNotNumber ⟨.minus, "-", 2, .nil⟩) := ⟨by decide +kernel, by decide +kernel⟩
  have output : (outcome .standard
      (String.ofList (Text.unified "print 1;\rprint -nil;".toList))).output = "1\n" := by
    decide +kernel
  have streams := decoded.1.stopped _ raises
  rw [output] at streams
  have undecodable : ∀ text : String, text.toUTF8 ≠ ⟨#[0xFF]⟩ := by
    intro text same
    have valid : ByteArray.IsValidUTF8 ⟨#[0xFF]⟩ := same ▸ text.isValidUTF8
    revert valid
    decide +kernel
  obtain ⟨exits, events⟩ := (run_truthful .standard "lox" "b" files "" rfl).2 undecodable
  refine ⟨⟨decoded.1.failed.2 ⟨_, raises⟩, streams.1, streams.2⟩, exits, ?_⟩
  rw [events]
  rfl

end CommandLine
end Scriptlet
