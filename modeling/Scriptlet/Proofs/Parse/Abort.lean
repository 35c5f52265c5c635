import Scriptlet.Proofs.Parse.Law

/-! A rule that is abandoned leaves a state that shows why: a fault is on record, or a
token of kind error stands behind the next one. What the recovery does then never removes
a report. -/
namespace Scriptlet.Parse
open State

def Abort.Shows : Abort → State → Prop
  | .reported, s => s.reports ≠ []
  | .tooDeep, _ => True
  | .overrun, s => s.errorBehind?.isSome = true

/-- Wherever this parser is abandoned, the state shows it. -/
def Complains {α : Type} (p : Parser α) : Prop :=
  ∀ s abort s', p s = .error abort s' → abort.Shows s'

namespace Complains
variable {α β : Type}

theorem bind {p : Parser α} {f : α → Parser β} (first : Complains p) (more : ∀ a, Complains (f a)) :
    Complains (p >>= f) := by
  intro s abort s' ran
  rcases error_of_bind ran with early | ⟨a, middle, _, late⟩
  · exact first _ _ _ early
  · exact more a _ _ _ late

theorem pure (a : α) : Complains (Pure.pure a : Parser α) := by intro s abort s' ran; cases ran

theorem tooDeep : Complains (throw .tooDeep : Parser α) := by
  intro s abort s' ran
  cases ran
  exact trivial

theorem get : Complains (MonadState.get : Parser State) := by intro s abort s' ran; cases ran

theorem report (t : Token) (fault : Fault) : Complains (Parse.report t fault) := by
  intro s abort s' ran; cases ran

theorem fail (fault : Fault) : Complains (Parse.fail fault : Parser α) := by
  intro s abort s' ran
  cases ran
  simp [Abort.Shows, State.report]

theorem take? (test : Token → Option α) : Complains (Parse.take? test) := by
  intro s abort s' ran
  unfold Parse.take? at ran
  split at ran
  · cases ran
  · split at ran <;> cases ran

theorem takeAt? (levels : Nat) (test : Token → Option α) :
    Complains (Parse.takeAt? levels test) := by
  intro s abort s' ran
  rw [takeAt?_eq] at ran
  split at ran
  · rename_i short
    cases ran
    exact short.2.1
  · exact take? test _ _ _ ran

theorem bracket {enter leave : State → State} {body : Parser α} (inside : Complains body)
    (kept : ∀ abort s, Abort.Shows abort s → abort.Shows (leave s)) :
    Complains (Parse.bracket enter leave body) := by
  intro s abort s' ran
  unfold Parse.bracket at ran
  split at ran
  · cases ran
  · rename_i failed
    cases ran
    exact kept _ _ (inside _ _ _ failed)

theorem nested {limit : Nat} {body : Parser α} (inside : Complains body) :
    Complains (Parse.nested limit body) := by
  refine bracket ?_ fun abort s shows => by cases abort <;> exact shows
  intro s abort s' ran
  dsimp only at ran
  split at ran
  · exact fail _ _ _ _ ran
  · exact inside _ _ _ ran

end Complains

theorem complains : Closed fun p => Complains p where
  pure := Complains.pure
  bind := Complains.bind
  get := Complains.get
  tooDeep := Complains.tooDeep
  take? := Complains.take?
  takeAt? := Complains.takeAt?
  report _ := Complains.report _
  fail := Complains.fail
  nested := Complains.nested
  block _ := Complains.bracket (fun s abort s' ran => by cases ran)
    fun abort s shows => by cases abort <;> exact shows

private theorem reports_synchronized {s : State} (some_report : s.reports ≠ []) :
    s.synchronized.reports ≠ [] := by
  intro nothing
  have kept := law_reports.synchronized s
  rw [nothing] at kept
  exact some_report (List.suffix_nil.1 kept)

theorem ok_of_recovered {body : Parser Stmt} {s s' : State} {made : Option Stmt}
    (complains : Complains body) (ran : recovered body s = (made, s')) (quiet : s'.reports = []) :
    ∃ statement, made = some statement ∧ body s = .ok statement s' := by
  unfold recovered at ran
  split at ran
  · rename_i statement after succeeded
    cases ran
    exact ⟨statement, rfl, succeeded⟩
  -- an abandoned declaration has a report, and the recovery keeps it
  · rename_i after failed
    cases ran
    exact absurd quiet (reports_synchronized (complains _ _ _ failed))
  all_goals
    cases ran
    exact absurd quiet (reports_synchronized (by simp [State.report]))

end Scriptlet.Parse
