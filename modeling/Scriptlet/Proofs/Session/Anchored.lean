import Scriptlet.Proofs.Run.Anchored
import Scriptlet.Proofs.Session.Lines

/-! A session outlives every text. A text is rejected with its syntax errors, or
its program ends, or it is halted by one error, which points at a token of that
very text unless it is an overflow; no text meets an operator without a meaning,
a token list that cannot be parsed, or a division by zero. -/
namespace Scriptlet

theorem Operator.divided {operator : Token} {left right value : Value}
    (slash : operator.kind = .slash) (divided : binary operator left right = .ok value) :
    ∃ a b, left = .number a ∧ right = .number b ∧ b.isZero = false ∧
      value = .number (a.div b) := by
  unfold binary at divided
  rw [slash] at divided
  dsimp only at divided
  split at divided
  · rename_i a b
    unfold numeric at divided
    rw [slash] at divided
    obtain ⟨nonzero, same⟩ := quotient_ok divided
    exact ⟨a, b, rfl, rfl, nonzero, same⟩
  · cases divided

namespace Session
open Token

/-- The turns of a session that runs these texts one after the other, interactively or not. -/
def turns (settings : Settings) : List (Bool × String) → Session → List Turn
  | [], _ => []
  | (interactive, source) :: more, session =>
    run settings interactive source session ::
      turns settings more (run settings interactive source session).session

/-- A turn that ends as turns may: it is not stuck, an error that halts it points
at one of the tokens, and its errors are all that it reports. -/
structure Turn.Anchored (tokens : List Token) (turn : Turn) : Prop where
  unstuck : ∀ operator, turn.verdict ≠ .stuck operator
  blamed : ∀ error, turn.verdict = .halted error → error.Anchored tokens
  marked : ∀ error, turn.verdict = .halted error → turn.session.hadRuntimeError = true
  complaint : errText turn.events = turn.verdict.complaint

section Turn
variable {tokens : List Token}

theorem Turn.Anchored.logged {turn : Turn} (anchored : turn.Anchored tokens)
    {channel : Channel} {message : String} :
    Turn.Anchored tokens { turn with events := .log channel message :: turn.events } where
  unstuck := anchored.unstuck
  blamed := anchored.blamed
  marked := anchored.marked
  complaint := by
    rw [errText_cons]
    exact String.empty_append.trans anchored.complaint

private theorem anchored_settled {outcome : Outcome}
    (blamed : ∀ failure ∈ outcome.failure, failure.Anchored tokens) (session : Session) :
    (settled outcome session).Anchored tokens := by
  have complaint := errText_settled outcome session
  unfold settled at complaint ⊢
  dsimp only at complaint ⊢
  cases ended : outcome.failure with
  | none =>
    rw [ended] at complaint
    exact ⟨by simp, by simp, by simp, complaint⟩
  | some failure =>
    rw [ended] at complaint
    have here := blamed failure ended
    cases failure with
    | raised error =>
      refine ⟨by simp, fun other same => ?_, fun _ _ => rfl, complaint⟩
      rw [← Verdict.halted.inj same]
      exact here
    | unknownOperator operator => exact here.elim

private theorem anchored_execute (settings : Settings) {program : List Stmt} (session : Session)
    (anchored : ∀ statement ∈ program, statement.Anchored tokens) :
    (execute settings program session).Anchored tokens := by
  rw [execute_eq]
  exact anchored_settled (anchored_interpret settings.depth session.globals anchored) session

private theorem anchored_runProgram (settings : Settings) (tokens : List Token) (session : Session) :
    (runProgram settings tokens session).Anchored tokens := by
  unfold runProgram
  dsimp only
  split
  · exact (anchored_execute settings session (Parse.anchored_program settings.limits tokens)).logged
  · refine ⟨by simp, by simp, by simp, ?_⟩
    simp [errText, Verdict.complaint, parsed, Event.errText, joined, Function.comp_def]

private theorem anchored_runInteractive (settings : Settings) (tokens : List Token) (session : Session) :
    (runInteractive settings tokens session).Anchored tokens := by
  unfold runInteractive
  split
  · rename_i value found
    have inside := Parse.anchored_bareExpression settings.limits tokens value found
    refine (anchored_execute settings session fun statement member => ?_).logged
    rw [List.mem_singleton.1 member]
    exact .print inside
  · exact anchored_runProgram settings tokens session

theorem anchored_run (settings : Settings) (interactive : Bool) (source : String)
    (session : Session) : (run settings interactive source session).Anchored (scan source) := by
  unfold run
  dsimp only
  split
  · exact (anchored_runInteractive settings (scan source) session).logged
  · exact (anchored_runProgram settings (scan source) session).logged

end Turn

theorem isComplete_scan (source : String) : Parse.isComplete (scan source) = true := by
  rw [scan_eq, Parse.isComplete, List.getLast?_concat]
  rfl

/-- Whatever the texts, and from whatever session: each can be parsed, the trees made
of it stand on its tokens, no division by zero is carried out, and every turn ends
as turns may. -/
theorem turns_anchored (settings : Settings) (inputs : List (Bool × String)) (session : Session) :
    (∀ source, Parse.isComplete (scan source) = true ∧
      (∀ made ∈ (Parse.program settings.limits (scan source)).tree,
        made.Anchored (scan source)) ∧
      ∀ e ∈ (Parse.bareExpression settings.limits (scan source)).tree,
        Expr.Anchored (scan source) e) ∧
    (∀ (operator : Token) left right value, operator.kind = .slash →
      Operator.binary operator left right = .ok value →
      ∃ a b, left = .number a ∧ right = .number b ∧ b.isZero = false ∧
        value = .number (a.div b)) ∧
    List.Forall₂ (fun input turn => Turn.Anchored (scan input.2) turn) inputs
      (turns settings inputs session) := by
  refine ⟨fun source => ⟨isComplete_scan source, Parse.anchored_program _ _,
    Parse.anchored_bareExpression _ _⟩, fun _ _ _ _ => Operator.divided, ?_⟩
  induction inputs generalizing session with
  | nil => exact .nil
  | cons input more ih =>
    obtain ⟨interactive, source⟩ := input
    exact .cons (anchored_run settings interactive source session) (ih _)

/-- A division by zero, and then a name without a value on a line of a prompt. -/
theorem turns_anchored_halted :
    (turns .standard [(false, "print 1 / 0;"), (true, "a")] .fresh).map Turn.verdict =
        [.halted (.divisionByZero ⟨.slash, "/", 1, .nil⟩),
          .halted (.undefinedVariable ⟨.identifier, "a", 1, .nil⟩)] ∧
      Among (scan "print 1 / 0;") (· == .slash) ⟨.slash, "/", 1, .nil⟩ ∧
      Among (scan "a") (· == .identifier) ⟨.identifier, "a", 1, .nil⟩ := by
  have verdicts : (turns .standard [(false, "print 1 / 0;"), (true, "a")] .fresh).map Turn.verdict =
      [.halted (.divisionByZero ⟨.slash, "/", 1, .nil⟩),
        .halted (.undefinedVariable ⟨.identifier, "a", 1, .nil⟩)] := by decide +kernel
  have anchored := (turns_anchored .standard [(false, "print 1 / 0;"), (true, "a")] .fresh).2.2
  refine ⟨verdicts, ?_⟩
  unfold turns turns turns at anchored verdicts
  simp only [List.map_cons, List.cons.injEq] at verdicts
  cases anchored with
  | cons first anchored =>
    cases anchored with
    | cons second anchored =>
      exact ⟨first.blamed _ verdicts.1, second.blamed _ verdicts.2.1⟩

end Session

end Scriptlet
