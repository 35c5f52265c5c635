import Scriptlet.Proofs.Grammar.Lines
import Scriptlet.Proofs.Parse.Reports
import Scriptlet.Proofs.Session.Rejected

/-! Interactive sessions and scripts. What is read as one bare expression is derived as an
expression, so no token of it ends a statement or closes a block. A program has such a token
behind each of its statements. So no text is both a program and a bare expression, and
interactively a program means what it means as a script; a text that is neither is rejected
as a script is. Only a bare expression is treated otherwise: it is printed. -/
namespace Scriptlet.Grammar
open Parse Parse.State

theorem bareExpression_sound {limits : Limits} {tokens : List Token} {e : Expr}
    (found : (bareExpression limits tokens).tree = some e) :
    Derives .expression (tokens.takeWhile (·.kind != .eof)) e ∧
      e.nesting + 1 ≤ limits.nesting := by
  unfold bareExpression at found
  split at found
  · rename_i value s ran
    dsimp only at found
    split at found
    · rename_i nothing
      cases found
      have quiet : s.reports = [] := List.isEmpty_iff.1 nothing
      obtain ⟨read, finished⟩ := ok_of_soleExpression ran
      obtain ⟨ts, passed, derived, fits⟩ := sound_rule _ _ _ _ _ _ read quiet
      have all := passed.split
      rw [start_rest passed.quiet, List.isEmpty_iff.1 finished, List.append_nil] at all
      rw [all]
      exact ⟨derived, by simpa [State.start, settled, entry] using fits (Nat.zero_le _)⟩
    · cases found
  · cases found

private theorem outside_of_declares {ts : List Token} {made : Stmt} (declared : Declares ts made) :
    ∃ t ∈ ts, inExpression t.kind = false := by
  cases declared with
  | @bare _ _ finish _ _ ended => exact ⟨finish, by simp, by rw [ended]; rfl⟩
  | @initialized _ _ _ _ finish _ _ _ _ _ ended => exact ⟨finish, by simp, by rw [ended]; rfl⟩
  | @print _ _ finish _ _ _ ended => exact ⟨finish, by simp, by rw [ended]; rfl⟩
  | @expression _ finish _ _ ended => exact ⟨finish, by simp, by rw [ended]; rfl⟩
  | @block _ _ closing _ _ _ closed => exact ⟨closing, by simp, by rw [closed]; rfl⟩

private theorem not_program_of_derives {ts : List Token} {e : Expr} {found : List Stmt}
    (derived : Derives .expression ts e) : ¬ Program ts found := by
  intro program
  have inside := kinds_of_derives derived
  cases program with
  | nil =>
    obtain ⟨t, more, shape, _⟩ := head_of_derives derived
    cases shape
  | cons first rest =>
    obtain ⟨t, member, outside⟩ := outside_of_declares first
    rw [inside t (List.mem_append_left _ member)] at outside
    cases outside

private theorem invalid_of_bareExpression {limits : Limits} {tokens : List Token} {e : Expr}
    (found : (bareExpression limits tokens).tree = some e) :
    (program limits tokens).isValid = false := by
  rw [Bool.eq_false_iff]
  intro valid
  have alone : program limits tokens = ⟨(program limits tokens).tree, []⟩ := eq_of_isValid valid
  exact not_program_of_derives (bareExpression_sound found).1 (program_sound alone).1

end Scriptlet.Grammar

namespace Scriptlet.Session
open Token Parse

theorem run_interactive_none {settings : Settings} {source : String}
    (nothing : (bareExpression settings.limits (scan source)).tree = none) (session : Session) :
    run settings true source session = run settings false source session := by
  unfold run
  dsimp only
  rw [if_pos rfl, if_neg Bool.false_ne_true, runInteractive_none session nothing]

/-- No token list is a bare expression and a program. So a program runs interactively as it
runs as a script, and what is neither is reported as in a script and does nothing else. -/
theorem run_interactive (settings : Settings) :
    (∀ tokens : List Token, ¬ ((bareExpression settings.limits tokens).tree.isSome = true ∧
      (program settings.limits tokens).isValid = true)) ∧
    ∀ (source : String) (session : Session),
      ((program settings.limits (scan source)).isValid = true →
        run settings true source session = run settings false source session) ∧
      ((program settings.limits (scan source)).isValid = false →
        (bareExpression settings.limits (scan source)).tree = none →
        run settings true source session = run settings false source session ∧
          run settings true source session =
            ⟨{ session with hadError := true },
              scanned (scan source) :: parsed (program settings.limits (scan source)) ::
                (program settings.limits (scan source)).diagnostics.map
                  fun d => .err (d.report ++ "\n"),
              .rejected (program settings.limits (scan source)).diagnostics⟩) := by
  have apart : ∀ tokens : List Token, ¬ ((bareExpression settings.limits tokens).tree.isSome = true ∧
      (program settings.limits tokens).isValid = true) := by
    rintro tokens ⟨some_tree, valid⟩
    obtain ⟨e, found⟩ := Option.isSome_iff_exists.1 some_tree
    rw [Grammar.invalid_of_bareExpression found] at valid
    cases valid
  refine ⟨apart, fun source session => ⟨fun valid => ?_, fun invalid nothing => ?_⟩⟩
  · refine run_interactive_none (Option.not_isSome_iff_eq_none.1 fun some_tree => ?_) session
    exact apart _ ⟨some_tree, valid⟩
  · have same := run_interactive_none nothing session
    exact ⟨same, same.trans (run_invalid invalid session)⟩

/-- A program, and a text that is neither a program nor an expression. -/
theorem run_interactive_unfinished :
    run .standard true "var a; { print a; }" .fresh =
        run .standard false "var a; { print a; }" .fresh ∧
      run .standard true "print a" .fresh =
        ⟨{ Session.fresh with hadError := true },
          [scanned (scan "print a"), parsed (program .standard (scan "print a")),
            .err "[line 1] Error at end: Expected ';' after value\n"],
          .rejected [⟨1, .finish, .semicolonAfterValue⟩]⟩ := by
  have both := (run_interactive .standard).2
  refine ⟨(both _ .fresh).1 (by decide +kernel), ?_⟩
  have rejected := ((both "print a" .fresh).2 (by decide +kernel) (by decide +kernel)).2
  have diagnostics : (program .standard (scan "print a")).diagnostics =
      [⟨1, .finish, .semicolonAfterValue⟩] := by decide +kernel
  rw [show Settings.standard.limits = Limits.standard from rfl, diagnostics] at rejected
  exact rejected

end Scriptlet.Session
