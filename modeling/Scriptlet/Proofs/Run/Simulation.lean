import Scriptlet.Run.Operator

/-! Runs of two semantics side by side. From related states they end with the
same result, or with corresponding failures, in related states again. Failures
that are excused end the comparison. -/
namespace Scriptlet
variable {σ τ α β : Type} {excused : Failure → Prop} {F : Failure → Failure} {R : σ → τ → Prop}

/-- Two runs that end alike. -/
inductive Ends (excused : Failure → Prop) (F : Failure → Failure) (R : σ → τ → Prop) :
    EStateM.Result Failure σ α → EStateM.Result Failure τ α → Prop
  | ok {a s t} (related : R s t) : Ends excused F R (.ok a s) (.ok a t)
  | error {failure s t} (related : R s t) :
      Ends excused F R (.error failure s) (.error (F failure) t)
  | excused {failure s result} (excuse : excused failure) :
      Ends excused F R (.error failure s) result

def Simulates (excused : Failure → Prop) (F : Failure → Failure) (R : σ → τ → Prop)
    (p : EStateM Failure σ α) (q : EStateM Failure τ α) : Prop :=
  ∀ s t, R s t → Ends excused F R (p s) (q t)

namespace Simulates
variable {p : EStateM Failure σ α} {q : EStateM Failure τ α}

theorem pure (a : α) : Simulates excused F R (Pure.pure a) (Pure.pure a) :=
  fun _ _ related => .ok related

theorem throw_excused {failure : Failure} (excuse : excused failure) :
    Simulates excused F R (throw failure) q :=
  fun _ _ _ => .excused excuse

theorem throw (failure : Failure) :
    Simulates excused F R (MonadExcept.throw failure : EStateM Failure σ α)
      (MonadExcept.throw (F failure)) :=
  fun _ _ related => .error related

theorem bind {f : α → EStateM Failure σ β} {g : α → EStateM Failure τ β}
    (first : Simulates excused F R p q) (more : ∀ a, Simulates excused F R (f a) (g a)) :
    Simulates excused F R (p >>= f) (q >>= g) := by
  intro s t related
  change Ends excused F R (EStateM.bind p f s) (EStateM.bind q g t)
  unfold EStateM.bind
  have began := first s t related
  generalize p s = left at began
  generalize q t = right at began
  cases began with
  | ok related => exact more _ _ _ related
  | error related => exact .error related
  | excused excuse => exact .excused excuse

end Simulates

end Scriptlet
