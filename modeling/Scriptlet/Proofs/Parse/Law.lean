import Scriptlet.Proofs.Parse.Closed

/-! Laws of the parser: a relation between the states before and after that
holds of every elementary step and carries over sequences, nesting and blocks
holds of every run, whether it succeeds or is abandoned, and of the recovery. -/
namespace Scriptlet.Parse
open State

namespace State

/-- The state in which this token of kind error has stopped the parser, and these come next. -/
def overrun (s : State) (e : Token) (more : List Token) : State :=
  settled { s with rest := more, reports := Diagnostic.atToken e .tooDeep :: s.reports }

theorem rest_overrun {s : State} {t e : Token} {more : List Token}
    (upcoming : s.rest = t :: e :: more) (sort : e.kind = .error) :
    (s.overrun e more).rest = s.advanced.rest := by
  simp [overrun, advanced, settled, upcoming, isLexicalError, sort]

theorem errorBehind?_eq_some {s : State} {e : Token} (found : s.errorBehind? = some e) :
    ∃ t more, s.rest = t :: e :: more ∧ e.kind = .error := by
  obtain ⟨behind, sort⟩ := Option.filter_eq_some_iff.1 found
  match upcoming : s.rest with
  | [] | [_] => simp [upcoming] at behind
  | t :: u :: more =>
    obtain rfl : u = e := by simpa [upcoming] using behind
    exact ⟨t, more, rfl, beq_iff_eq.1 sort⟩

theorem reports_stopped (s : State) : s.stopped.reports = s.reports := by
  unfold stopped
  split <;> rfl

theorem stopped_frame (s : State) : s.stopped.finish = s.finish ∧ s.stopped.blocks = s.blocks := by
  unfold stopped
  split <;> exact ⟨rfl, rfl⟩

theorem synchronized_stopped {s : State} {t e : Token} {more : List Token}
    (upcoming : s.rest = t :: e :: more) (sort : e.kind = .error) :
    (s.stopped.report s.stopped.next .tooDeep).synchronized = (s.overrun e more).seek e := by
  have found : s.errorBehind? = some e := by
    simp [errorBehind?, upcoming, isLexicalError, sort]
  have stands : s.stopped = { s with rest := e :: more } := by
    unfold stopped
    rw [found, upcoming]
    rfl
  have open_ : (s.stopped.report e .tooDeep).atBlockEnd ≠ true := by
    simp [atBlockEnd, sees, State.report, stands, sort]
  have next : s.stopped.next = e := by rw [stands]; rfl
  have rest : (s.stopped.report e .tooDeep).rest = e :: more := by rw [stands]; rfl
  rw [next, synchronized.eq_def, rest]
  refine (if_neg open_).trans ?_
  rw [stands]
  rfl

theorem synchronized_stopped_cases (s : State) :
    (s.stopped.report s.stopped.next .tooDeep).synchronized =
        (s.report s.next .tooDeep).synchronized ∨
      ∃ t e more, s.rest = t :: e :: more ∧ e.kind = .error ∧
        (s.stopped.report s.stopped.next .tooDeep).synchronized = (s.overrun e more).seek e := by
  cases found : s.errorBehind? with
  | none =>
    have same : s.stopped = s := by
      unfold stopped
      rw [found]
    exact .inl (by rw [same])
  | some e =>
    obtain ⟨t, more, upcoming, sort⟩ := errorBehind?_eq_some found
    exact .inr ⟨t, e, more, upcoming, sort, synchronized_stopped upcoming sort⟩

end State

/-- A relation of states that the steps of the parser keep to, apart from reports at tokens
that have been taken. -/
structure Course (R : State → State → Prop) : Prop where
  refl : ∀ s, R s s
  trans : ∀ {s middle s'}, R s middle → R middle s' → R s s'
  advanced : ∀ s : State, R s s.advanced
  overrun : ∀ {s : State} {t e : Token} {more : List Token}, s.rest = t :: e :: more →
    e.kind = .error → R s (s.overrun e more)
  reportNext : ∀ (s : State) fault, R s (s.report s.next fault)
  deeper : ∀ {s s' : State}, R s.deeper s' → R s { s' with nesting := s'.nesting - 1 }
  inner : ∀ {s s' : State}, R s.inner s' → R s { s' with blocks := s'.blocks - 1 }

/-- A relation of states that the steps of the parser keep to. A report is made at the
next token, or at one that has been taken, which is not of kind error. -/
structure Law (R : State → State → Prop) : Prop extends Course R where
  report : ∀ (s : State) {t : Token}, t.kind ≠ .error → ∀ fault, R s (s.report t fault)

def after {α : Type} : EStateM.Result Abort State α → State
  | .ok _ s => s
  | .error _ s => s

def Keeps {α : Type} (R : State → State → Prop) (p : Parser α) : Prop := ∀ s, R s (after (p s))

theorem Keeps.bracket {α : Type} {R : State → State → Prop} {enter leave : State → State}
    {body : Parser α} (inside : Keeps R body) (leaves : ∀ {s s'}, R (enter s) s' → R s (leave s')) :
    Keeps R (Parse.bracket enter leave body) := by
  intro s
  have ran := leaves (inside (enter s))
  cases ended : body (enter s) with
  | ok a middle =>
    rw [ended] at ran
    rw [bracket_ok ended]
    exact ran
  | error abort middle =>
    rw [ended] at ran
    rw [bracket_error ended]
    exact ran

namespace Course
variable {α β : Type} {R : State → State → Prop}

theorem bind (course : Course R) {p : Parser α} {f : α → Parser β} (first : Keeps R p)
    (more : ∀ a, Keeps R (f a)) : Keeps R (p >>= f) := by
  intro s
  have began := first s
  cases ran : p s with
  | ok a middle =>
    rw [bind_of_ok ran]
    rw [ran] at began
    exact course.trans began (more a middle)
  | error abort middle =>
    rw [bind_of_error ran]
    rwa [ran] at began

theorem pure (course : Course R) (a : α) : Keeps R (Pure.pure a : Parser α) := course.refl

theorem thrown (course : Course R) (abort : Abort) : Keeps R (throw abort : Parser α) := course.refl

theorem get (course : Course R) : Keeps R (MonadState.get : Parser State) := course.refl

theorem fail (course : Course R) (fault : Fault) : Keeps R (Parse.fail fault : Parser α) :=
  fun s => course.reportNext s fault

theorem take? (course : Course R) (test : Token → Option α) : Keeps R (Parse.take? test) := by
  intro s
  unfold Parse.take?
  split
  · exact course.refl s
  · split
    · exact course.refl s
    · exact course.advanced s

theorem takeAt? (course : Course R) (levels : Nat) (test : Token → Option α) :
    Keeps R (Parse.takeAt? levels test) := by
  intro s
  rw [takeAt?_eq]
  split
  · exact course.refl s
  · exact course.take? test s

theorem nested (course : Course R) {limit : Nat} {body : Parser α} (inside : Keeps R body) :
    Keeps R (Parse.nested limit body) := by
  refine Keeps.bracket (fun s => ?_) course.deeper
  split
  · exact course.fail _ s
  · exact inside s

theorem seek (course : Course R) (s : State) (last : Token) : R s (s.seek last) := by
  fun_induction State.seek s last with
  | case1 => exact course.refl _
  | case2 => exact course.refl _
  | case3 s last t more upcoming _ ih => exact course.trans (course.advanced s) ih

theorem synchronized (course : Course R) (s : State) : R s s.synchronized := by
  unfold State.synchronized
  split
  · exact course.refl s
  · split
    · exact course.refl s
    · exact course.trans (course.advanced s) (course.seek _ _)

theorem stopped (course : Course R) (s : State) :
    R s (s.stopped.report s.stopped.next .tooDeep).synchronized := by
  rcases s.synchronized_stopped_cases with same | ⟨t, e, more, upcoming, sort, same⟩
  · rw [same]
    exact course.trans (course.reportNext s _) (course.synchronized _)
  · rw [same]
    exact course.trans (course.overrun upcoming sort) (course.seek _ _)

theorem recovered (course : Course R) {body : Parser Stmt} (inside : Keeps R body) (s : State) :
    R s (Parse.recovered body s).2 := by
  have ran := inside s
  unfold Parse.recovered
  cases outcome : body s with
  | ok statement middle => rwa [outcome] at ran
  | error abort middle =>
    rw [outcome] at ran
    cases abort with
    | reported => exact course.trans ran (course.synchronized _)
    | tooDeep => exact course.trans ran (course.trans (course.reportNext _ _) (course.synchronized _))
    | overrun => exact course.trans ran (course.stopped _)

theorem declarations (course : Course R) {declaration : State → Option Stmt × State}
    (step : ∀ s, R s (declaration s).2) (ends : State → Bool) (bound : List Token) (s : State) :
    R s (Parse.declarations declaration ends bound s).2 := by
  induction bound generalizing s with
  | nil => exact course.refl s
  | cons _ bound ih =>
    unfold Parse.declarations
    split
    · exact course.refl s
    · exact course.trans (step s) (ih _)

theorem built (course : Course R) : Built fun p => Keeps R p where
  pure := course.pure
  bind := course.bind
  get := course.get
  tooDeep := course.thrown .tooDeep
  take? := course.take?
  takeAt? := course.takeAt?
  fail := course.fail
  nested := course.nested
  block inside :=
    Keeps.bracket (fun s => course.declarations (course.recovered inside) _ _ s) course.inner

end Course

theorem Law.closed {R : State → State → Prop} (law : Law R) : Closed fun p => Keeps R p where
  toBuilt := law.toCourse.built
  report usable fault s := law.report s usable fault

theorem law_reports : Law fun s s' => s.reports <:+ s'.reports where
  refl _ := List.suffix_refl _
  trans := List.IsSuffix.trans
  advanced _ := List.suffix_append _ _
  overrun _ _ := (List.suffix_cons _ _).trans (List.suffix_append _ _)
  report _ _ _ _ := List.suffix_cons _ _
  reportNext _ _ := List.suffix_cons _ _
  deeper kept := kept
  inner kept := kept

end Scriptlet.Parse
