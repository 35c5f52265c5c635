import Scriptlet.Proofs.Run.Anchored
import Scriptlet.Proofs.Run.Sequence

/-! Runs of a program with fewer and with more levels of depth, side by side. They are the
same unless the first one overflows. What it has printed by then is the beginning of what
the second one prints, and the statements before the one that overflows do the same in both. -/
namespace Scriptlet

/-- The second depth has all the levels of the first one. -/
def Depth.Within : Depth → Depth → Prop
  | _, unbounded => True
  | unbounded, bounded _ => False
  | bounded levels, bounded more => levels ≤ more

namespace Depth
variable {depth larger : Depth}

private theorem within_self (depth : Depth) : depth.Within depth := by
  cases depth with
  | bounded levels => exact Nat.le_refl levels
  | unbounded => trivial

private theorem within_unbounded (depth : Depth) : depth.Within .unbounded := by
  cases depth <;> trivial

theorem Within.deeper (within : depth.Within larger) :
    depth.deeper? = none ∨
      ∃ inner outer, depth.deeper? = some inner ∧ larger.deeper? = some outer ∧
        inner.Within outer := by
  match depth, larger with
  | bounded 0, _ => exact .inl rfl
  | bounded (levels + 1), unbounded => exact .inr ⟨_, _, rfl, rfl, trivial⟩
  | unbounded, unbounded => exact .inr ⟨_, _, rfl, rfl, trivial⟩
  | bounded (levels + 1), bounded 0 => exact absurd within (Nat.not_succ_le_zero levels)
  | bounded (levels + 1), bounded (more + 1) =>
    exact .inr ⟨_, _, rfl, rfl, Nat.le_of_succ_le_succ within⟩

end Depth

open Flat (Overflow)

section Expressions
variable {α : Type} {depth larger : Depth}

theorem Simulates.same {σ : Type} {excused : Failure → Prop} (p : EStateM Failure σ α) :
    Simulates excused id Eq p p := by
  rintro s _ rfl
  cases p s with
  | ok a s => exact .ok rfl
  | error failure s => exact .error rfl

theorem simulates_deeper {p q : Depth → Evaluation α} (within : depth.Within larger)
    (each : ∀ {inner outer : Depth}, inner.Within outer →
      Simulates Overflow id Eq (p inner) (q outer)) :
    Simulates Overflow id Eq (Evaluation.deeper depth p) (Evaluation.deeper larger q) := by
  unfold Evaluation.deeper
  rcases within.deeper with none_left | ⟨inner, outer, shallow, deep, within⟩
  · rw [none_left]
    exact .throw_excused rfl
  · rw [shallow, deep]
    exact each within

theorem simulates_evaluate (e : Expr) (within : depth.Within larger) :
    Simulates Overflow id Eq (e.evaluate depth) (e.evaluate larger) := by
  induction e generalizing depth larger with
  | literal value => exact simulates_deeper within fun _ => .same _
  | grouping inner ih => exact simulates_deeper within fun within => ih within
  | unary operator right ih =>
    exact simulates_deeper within fun within => (ih within).bind fun b => .same _
  | binary left operator right leftIH rightIH =>
    exact simulates_deeper within fun within => (leftIH within).bind fun a =>
      (rightIH within).bind fun b => .same _
  | comma left operator right leftIH rightIH =>
    exact simulates_deeper within fun within => (leftIH within).bind fun _ => rightIH within
  | conditional condition onTrue onFalse ih trueIH falseIH =>
    refine simulates_deeper within fun within => (ih within).bind fun c => ?_
    split
    · exact trueIH within
    · exact falseIH within
  | reference name => exact simulates_deeper within fun _ => .same _
  | assign name value ih =>
    exact simulates_deeper within fun within => (ih within).bind fun v => .same _

end Expressions

section Statements
variable {α β : Type} {depth larger : Depth}

def Begins (first whole : String) : Prop := ∃ more, whole = first ++ more

theorem Begins.refl (text : String) : Begins text text := ⟨"", String.append_empty.symm⟩

theorem Begins.trans {first second third : String} (early : Begins first second)
    (late : Begins second third) : Begins first third := by
  obtain ⟨more, rfl⟩ := early
  obtain ⟨later, rfl⟩ := late
  exact ⟨more ++ later, String.append_assoc⟩

def Appends (p : Execution α) : Prop := ∀ m, Begins m.output (finalState (p m)).output

theorem Appends.nothing {p : Execution α} (silent : ∀ m, (finalState (p m)).output = m.output) :
    Appends p := by
  intro m
  rw [silent m]
  exact .refl m.output

theorem Appends.bind {p : Execution α} {f : α → Execution β} (first : Appends p)
    (more : ∀ a, Appends (f a)) : Appends (p >>= f) := by
  intro m
  have printed := first m
  change Begins m.output (finalState (EStateM.bind p f m)).output
  unfold EStateM.bind
  cases ran : p m with
  | ok a middle =>
    rw [ran] at printed
    exact printed.trans (more a middle)
  | error failure middle => rwa [ran] at printed

/-- The first run is the second one, or overflows and has printed the beginning of it. -/
inductive Curtails : EStateM.Result Failure Machine α → EStateM.Result Failure Machine α → Prop
  | whole {result} : Curtails result result
  | cut {m result} (printed : Begins m.output (finalState result).output) :
      Curtails (.error (.raised .stackOverflow) m) result

structure Curtailed (p q : Execution α) : Prop where
  runs : ∀ m, Curtails (p m) (q m)
  appends : Appends q

namespace Curtailed
variable {p q : Execution α}

theorem same (appends : Appends p) : Curtailed p p := ⟨fun _ => .whole, appends⟩

theorem pure (a : α) : Curtailed (Pure.pure a) (Pure.pure a) := same (.nothing fun _ => rfl)

theorem bind {f g : α → Execution β} (first : Curtailed p q) (more : ∀ a, Curtailed (f a) (g a)) :
    Curtailed (p >>= f) (q >>= g) where
  runs m := by
    have began := first.runs m
    change Curtails (EStateM.bind p f m) (EStateM.bind q g m)
    unfold EStateM.bind
    generalize p m = short at began
    generalize q m = long at began
    cases began with
    | whole =>
      cases short with
      | ok a middle => exact (more a).runs middle
      | error failure middle => exact .whole
    | cut printed =>
      cases long with
      | ok a middle => exact .cut (printed.trans ((more a).appends middle))
      | error failure middle => exact .cut printed
  appends := first.appends.bind fun a => (more a).appends

theorem evaluated {short long : Evaluation α} (each : Simulates Overflow id Eq short long) :
    Curtailed (Execution.evaluated short) (Execution.evaluated long) where
  runs m := by
    have ends := each m.scope m.scope rfl
    unfold Execution.evaluated
    generalize short m.scope = left at ends
    generalize long m.scope = right at ends
    cases ends with
    | ok same => rw [same]; exact .whole
    | error same => rw [same]; exact .whole
    | excused excuse =>
      rw [show _ = Failure.raised .stackOverflow from excuse]
      cases right <;> exact .cut (.refl m.output)
  appends := .nothing fun m => by
    unfold Execution.evaluated
    cases long m.scope <;> rfl

theorem emit (value : Value) : Curtailed (Execution.emit value) (Execution.emit value) :=
  same fun _ => ⟨value.shown ++ "\n", String.append_assoc⟩

theorem define (name : Token) (value : Value) :
    Curtailed (Execution.define name value) (Execution.define name value) :=
  same (.nothing fun _ => rfl)

theorem inBlock (inside : Curtailed p q) :
    Curtailed (Execution.inBlock p) (Execution.inBlock q) where
  runs m := by
    have ran := inside.runs { m with scope := m.scope.opened }
    unfold Execution.inBlock
    generalize p _ = short at ran
    generalize q _ = long at ran
    cases ran with
    | whole => exact .whole
    | cut printed => cases long <;> exact .cut printed
  appends m := by
    have printed := inside.appends { m with scope := m.scope.opened }
    unfold Execution.inBlock
    cases ran : q { m with scope := m.scope.opened } <;> rw [ran] at printed <;> exact printed

theorem deeper {p q : Depth → Execution α} (within : depth.Within larger)
    (each : ∀ {inner outer : Depth}, inner.Within outer → Curtailed (p inner) (q outer)) :
    Curtailed (Execution.deeper depth p) (Execution.deeper larger q) := by
  have appends : Appends (Execution.deeper larger q) := by
    unfold Execution.deeper
    cases larger.deeper? with
    | none => exact .nothing fun _ => rfl
    | some outer => exact (each (Depth.within_self outer)).appends
  refine ⟨fun m => ?_, appends⟩
  have printed := appends m
  unfold Execution.deeper at printed ⊢
  rcases within.deeper with none_left | ⟨inner, outer, shallow, deep, within⟩
  · rw [none_left]
    exact .cut printed
  · rw [shallow, deep]
    exact (each within).runs m

end Curtailed

mutual

private theorem curtailed_execute {depth larger : Depth} (within : depth.Within larger) :
    (statement : Stmt) → Curtailed (statement.execute depth) (statement.execute larger)
  | .expression value =>
    (Curtailed.evaluated (simulates_evaluate value within)).bind fun _ => .pure ()
  | .print value =>
    (Curtailed.evaluated (simulates_evaluate value within)).bind fun v => .emit v
  | .declare name none => .define name .nil
  | .declare name (some initializer) =>
    (Curtailed.evaluated (simulates_evaluate initializer within)).bind fun v => .define name v
  | .block body => by
    unfold Stmt.execute
    exact .deeper within fun within => (curtailed_executeAll within body).inBlock

private theorem curtailed_executeAll {depth larger : Depth} (within : depth.Within larger) :
    (program : List Stmt) →
      Curtailed (Stmt.executeAll depth program) (Stmt.executeAll larger program)
  | [] => .pure ()
  | statement :: more =>
    (curtailed_execute within statement).bind fun _ => curtailed_executeAll within more

end

theorem executeAll_within (within : depth.Within larger) {program : List Stmt} {m m' : Machine}
    (completed : Stmt.executeAll depth program m = .ok () m') :
    Stmt.executeAll larger program m = .ok () m' := by
  have runs := (curtailed_executeAll within program).runs m
  rw [completed] at runs
  generalize Stmt.executeAll larger program m = result at runs ⊢
  cases runs with
  | whole => rfl

end Statements

section Overflows

def NoOverflow (failure : Failure) : Prop := ¬ Overflow failure

private theorem Failure.OfOperator.noOverflow {failure : Failure} (plain : failure.OfOperator) :
    NoOverflow failure := by
  rintro rfl
  exact plain

private theorem noOverflow_evaluate (e : Expr) : Fails NoOverflow (e.evaluate .unbounded) := by
  induction e with
  | literal value => exact .pure value
  | grouping inner ih => exact ih
  | unary operator right ih =>
    exact ih.bind fun b => fails_settle fun _ failed => (Operator.ofOperator_unary failed).noOverflow
  | binary left operator right leftIH rightIH =>
    exact leftIH.bind fun a => rightIH.bind fun b =>
      fails_settle fun _ failed => (Operator.ofOperator_binary failed).noOverflow
  | comma left operator right leftIH rightIH => exact leftIH.bind fun _ => rightIH
  | conditional condition onTrue onFalse ih trueIH falseIH =>
    refine ih.bind fun c => ?_
    split
    · exact trueIH
    · exact falseIH
  | reference name =>
    have other : NoOverflow (.raised (.undefinedVariable name)) := nofun
    exact fails_lookup other
  | assign name value ih =>
    have other : NoOverflow (.raised (.undefinedVariable name)) := nofun
    exact ih.bind fun v => (fails_store other v).bind fun _ => .pure v

mutual

private theorem noOverflow_execute : (statement : Stmt) → Fails NoOverflow (statement.execute .unbounded)
  | .expression value => (fails_evaluated (noOverflow_evaluate value)).bind fun _ => .pure ()
  | .print value => (fails_evaluated (noOverflow_evaluate value)).bind fun v => fails_emit v
  | .declare name none => fails_define name .nil
  | .declare name (some initializer) =>
    (fails_evaluated (noOverflow_evaluate initializer)).bind fun v => fails_define name v
  | .block body => by
    unfold Stmt.execute
    exact fails_inBlock (noOverflow_executeAll body)

private theorem noOverflow_executeAll :
    (program : List Stmt) → Fails NoOverflow (Stmt.executeAll .unbounded program)
  | [] => .pure ()
  | statement :: more => (noOverflow_execute statement).bind fun _ => noOverflow_executeAll more

end

end Overflows

section Programs

private theorem interpret_unbounded (program : List Stmt) (globals : Frame) :
    (interpret .unbounded program globals).failure ≠ some (.raised .stackOverflow) := by
  rw [interpret_eq_ofResult]
  cases ran : Stmt.executeAll .unbounded program ⟨.global globals, ""⟩ with
  | ok _ m => exact nofun
  | error failure m =>
    exact fun overflow => noOverflow_executeAll program _ _ _ ran (Option.some.inj overflow)

private theorem interpret_within {depth larger : Depth} (within : depth.Within larger)
    (program : List Stmt) (globals : Frame) :
    Begins (interpret depth program globals).output (interpret larger program globals).output ∧
      ((interpret depth program globals).failure ≠ some (.raised .stackOverflow) →
        interpret larger program globals = interpret depth program globals) := by
  have runs := (curtailed_executeAll within program).runs ⟨.global globals, ""⟩
  rw [interpret_eq_ofResult, interpret_eq_ofResult]
  generalize Stmt.executeAll depth program ⟨.global globals, ""⟩ = short at runs
  generalize Stmt.executeAll larger program ⟨.global globals, ""⟩ = long at runs
  cases runs with
  | whole => exact ⟨.refl _, fun _ => rfl⟩
  | cut printed =>
    refine ⟨?_, fun passed => absurd rfl passed⟩
    cases long <;> exact printed

theorem interpret_eq_unbounded_iff (depth : Depth) (program : List Stmt) (globals : Frame) :
    interpret .unbounded program globals = interpret depth program globals ↔
      (interpret depth program globals).failure ≠ some (.raised .stackOverflow) := by
  constructor
  · intro same
    rw [← same]
    exact interpret_unbounded program globals
  · exact (interpret_within depth.within_unbounded program globals).2

/-- The limit of depth is transparent. A run that does not overflow is the run with no
limit, and the run with every larger one. A run that overflows has printed the beginning of
what the run without a limit prints, and does so in a statement that it comes to as that run
does, in the same scope and behind the same output. -/
theorem interpret_limited (depth : Depth) (program : List Stmt) (globals : Frame) :
    ((interpret depth program globals).failure ≠ some (.raised .stackOverflow) →
      interpret .unbounded program globals = interpret depth program globals ∧
        ∀ larger, depth.Within larger →
          interpret larger program globals = interpret depth program globals) ∧
    ((interpret depth program globals).failure = some (.raised .stackOverflow) →
      Begins (interpret depth program globals).output
          (interpret .unbounded program globals).output ∧
        ∃ before culprit behind reached ended, program = before ++ culprit :: behind ∧
          Stmt.executeAll depth before ⟨.global globals, ""⟩ = .ok () reached ∧
          Stmt.executeAll .unbounded before ⟨.global globals, ""⟩ = .ok () reached ∧
          culprit.execute depth reached = .error (.raised .stackOverflow) ended ∧
          interpret depth program globals =
            ⟨ended.scope.globals, ended.output, some (.raised .stackOverflow)⟩) := by
  constructor
  · intro passed
    refine ⟨(interpret_eq_unbounded_iff depth program globals).2 passed, fun larger within => ?_⟩
    exact (interpret_within within program globals).2 passed
  intro overflow
  refine ⟨(interpret_within depth.within_unbounded program globals).1, ?_⟩
  rw [interpret_eq_ofResult] at overflow ⊢
  cases ran : Stmt.executeAll depth program ⟨.global globals, ""⟩ with
  | ok _ m =>
    rw [ran] at overflow
    cases overflow
  | error failure ended =>
    rw [ran] at overflow
    cases overflow
    obtain ⟨before, culprit, behind, reached, whole, completed, failing⟩ := executeAll_error ran
    have same := executeAll_within depth.within_unbounded completed
    exact ⟨before, culprit, behind, reached, ended, whole, completed, same, failing, rfl⟩

/-- Two groupings need three levels of depth. -/
theorem interpret_limited_groupings :
    let program : List Stmt := [.print (.literal .nil),
      .print (.grouping (.grouping (.literal (.truth true)))), .print (.literal .nil)]
    (interpret (.bounded 2) program ⟨[]⟩).failure = some (.raised .stackOverflow) ∧
      (interpret (.bounded 2) program ⟨[]⟩).output = "nil\n" ∧
      Begins (interpret (.bounded 2) program ⟨[]⟩).output
        (interpret .unbounded program ⟨[]⟩).output ∧
      interpret .unbounded program ⟨[]⟩ = interpret (.bounded 3) program ⟨[]⟩ := by
  intro program
  have overflows : (interpret (.bounded 2) program ⟨[]⟩).failure =
      some (.raised .stackOverflow) := by
    decide +kernel
  have cut := (interpret_limited (.bounded 2) program ⟨[]⟩).2 overflows
  have whole := (interpret_limited (.bounded 3) program ⟨[]⟩).1 (by decide +kernel)
  exact ⟨overflows, by decide +kernel, cut.1, whole.1⟩

end Programs

end Scriptlet
