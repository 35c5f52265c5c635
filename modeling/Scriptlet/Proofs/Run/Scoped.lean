import Mathlib.Logic.Relation
import Scriptlet.Proofs.Run.Anchored
import Scriptlet.Proofs.Scope.Checked

/-! Programs whose names have been checked. Wherever such a program is evaluated or executed
in a scope that binds the names of the stack, set by set, the scope still does so at the end
and nothing fails for a name without a value. So it is at every point of a run, which is
a chain of calls with the stack that the check has there. -/
namespace Scriptlet
open Relation

section Runs
variable {σ α β : Type} {view : σ → Scope} {before middle after : Names}

/-- No name is without a value, and the scopes bind the names behind it; where it fails,
those before it. -/
inductive Bound (view : σ → Scope) (before after : Names) : EStateM.Result Failure σ α → Prop
  | ok {a s} (covered : Covers after (view s)) : Bound view before after (.ok a s)
  | error {failure s} (named : ∀ name, failure ≠ .raised (.undefinedVariable name))
      (covered : Covers before (view s)) : Bound view before after (.error failure s)

/-- In scopes that bind the names before it, this run keeps them bound. -/
def Binds (view : σ → Scope) (before after : Names) (p : EStateM Failure σ α) : Prop :=
  ∀ s, Covers before (view s) → Bound view before after (p s)

namespace Binds
variable {p : EStateM Failure σ α}

theorem pure (a : α) : Binds view before before (Pure.pure a : EStateM Failure σ α) :=
  fun _ covers => .ok covers

theorem throw {failure : Failure} (named : ∀ name, failure ≠ .raised (.undefinedVariable name)) :
    Binds view before after (MonadExcept.throw failure : EStateM Failure σ α) :=
  fun _ covers => .error named covers

theorem bind {f : α → EStateM Failure σ β} (first : Binds view before middle p)
    (grows : Grows before middle) (more : ∀ a, Binds view middle after (f a)) :
    Binds view before after (p >>= f) := by
  intro s covers
  have began := first s covers
  change Bound view before after (EStateM.bind p f s)
  unfold EStateM.bind
  generalize p s = result at began
  cases began with
  | error named covered => exact .error named covered
  | ok covered =>
    rename_i a s'
    have ended := more a s' covered
    dsimp only
    generalize f a s' = result at ended
    cases ended with
    | ok covered => exact .ok covered
    | error named covered => exact .error named (covered.fewer grows covers.ne_nil)

theorem next {f : α → EStateM Failure σ β} (first : Binds view before before p)
    (more : ∀ a, Binds view before after (f a)) : Binds view before after (p >>= f) :=
  first.bind (.refl before) more

end Binds

end Runs

section Expressions
variable {names : Names}

theorem Failure.OfOperator.named {failure : Failure} (plain : failure.OfOperator) (name : Token) :
    failure ≠ .raised (.undefinedVariable name) := by
  rintro rfl
  exact plain

private theorem overflow_named (name : Token) :
    Failure.raised .stackOverflow ≠ .raised (.undefinedVariable name) := nofun

private theorem binds_settle {α : Type} {result : Except Failure α}
    (plain : ∀ failure, result = .error failure → failure.OfOperator) :
    Binds id names names (Evaluation.settle result) := by
  intro scope covers
  cases result with
  | ok a => exact .ok covers
  | error failure => exact .error (plain failure rfl).named covers

private theorem binds_lookup {name : Token} (known : names.has name.lexeme = true) :
    Binds id names names (Evaluation.lookup name) := by
  intro scope covers
  obtain ⟨value, found⟩ := covers.get? known
  unfold Evaluation.lookup
  rw [show scope.get? name.lexeme = some value from found]
  exact .ok covers

private theorem binds_store {name : Token} (known : names.has name.lexeme = true) (value : Value) :
    Binds id names names (Evaluation.store name value) := by
  intro scope covers
  obtain ⟨scope', assigned, covered⟩ := covers.assign? known value
  unfold Evaluation.store
  rw [show scope.assign? name.lexeme value = some scope' from assigned]
  exact .ok covered

private theorem binds_deeper {α : Type} {depth : Depth} {p : Depth → Evaluation α}
    (each : ∀ depth, Binds id names names (p depth)) :
    Binds id names names (Evaluation.deeper depth p) := by
  unfold Evaluation.deeper
  cases depth.deeper? with
  | none => exact .throw overflow_named
  | some depth => exact each depth

private theorem binds_evaluate {e : Expr} (known : e.isScoped names = true) (depth : Depth) :
    Binds id names names (e.evaluate depth) := by
  induction e generalizing depth with
  | literal value => exact binds_deeper fun _ => .pure value
  | grouping inner ih => exact binds_deeper fun depth => ih known depth
  | unary operator right ih =>
    exact binds_deeper fun depth => (ih known depth).next fun b =>
      binds_settle fun _ => Operator.ofOperator_unary
  | binary left operator right leftIH rightIH =>
    obtain ⟨first, second⟩ := Bool.and_eq_true_iff.1 known
    exact binds_deeper fun depth => (leftIH first depth).next fun a =>
      (rightIH second depth).next fun b => binds_settle fun _ => Operator.ofOperator_binary
  | comma left operator right leftIH rightIH =>
    obtain ⟨first, second⟩ := Bool.and_eq_true_iff.1 known
    exact binds_deeper fun depth => (leftIH first depth).next fun _ => rightIH second depth
  | conditional condition onTrue onFalse ih trueIH falseIH =>
    obtain ⟨decides, whenFalse⟩ := Bool.and_eq_true_iff.1 known
    obtain ⟨decides, whenTrue⟩ := Bool.and_eq_true_iff.1 decides
    refine binds_deeper fun depth => (ih decides depth).next fun c => ?_
    split
    · exact trueIH whenTrue depth
    · exact falseIH whenFalse depth
  | reference name => exact binds_deeper fun _ => binds_lookup known
  | assign name value ih =>
    obtain ⟨target, inside⟩ := Bool.and_eq_true_iff.1 known
    exact binds_deeper fun depth => (ih inside depth).next fun v =>
      (binds_store target v).next fun _ => .pure v

end Expressions

section Statements
variable {α : Type} {names inner : Names}

private theorem binds_evaluated {p : Evaluation α} (inside : Binds id names names p) :
    Binds Machine.scope names names (Execution.evaluated p) := by
  intro m covers
  have ran := inside m.scope covers
  unfold Execution.evaluated
  generalize p m.scope = result at ran
  cases ran with
  | ok covered => exact .ok covered
  | error named covered => exact .error named covered

private theorem binds_emit (value : Value) : Binds Machine.scope names names (Execution.emit value) :=
  fun _ covers => .ok covers

private theorem binds_define (name : Token) (value : Value) :
    Binds Machine.scope names (names.declare name.lexeme) (Execution.define name value) :=
  fun _ covers => .ok (covers.define name.lexeme value)

private theorem binds_inBlock {p : Execution α} (inside : Binds Machine.scope ([] :: names) inner p)
    (grows : Grows ([] :: names) inner) :
    Binds Machine.scope names inner.tail (Execution.inBlock p) := by
  intro m covers
  have ran := inside { m with scope := m.scope.opened } covers.opened
  have around : inner.tail ≠ [] := grows.around ▸ covers.ne_nil
  unfold Execution.inBlock
  generalize p _ = result at ran
  cases ran with
  | ok covered => exact .ok (covered.closed around)
  | error named covered => exact .error named (covered.closed covers.ne_nil)

mutual

private theorem binds_execute {names after : Names} (depth : Depth) :
    (statement : Stmt) → statement.check names = some after →
      Binds Machine.scope names after (statement.execute depth)
  | .expression value, checked => by
    obtain ⟨known, same⟩ := Option.ite_none_right_eq_some.1 checked
    cases same
    exact (binds_evaluated (binds_evaluate known depth)).next fun _ => .pure ()
  | .print value, checked => by
    obtain ⟨known, same⟩ := Option.ite_none_right_eq_some.1 checked
    cases same
    exact (binds_evaluated (binds_evaluate known depth)).next fun v => binds_emit v
  | .declare name none, checked => by
    cases checked
    exact binds_define name .nil
  | .declare name (some initializer), checked => by
    obtain ⟨known, same⟩ := Option.ite_none_right_eq_some.1 checked
    cases same
    exact (binds_evaluated (binds_evaluate known depth)).next fun v => binds_define name v
  | .block body, checked => by
    obtain ⟨inner, inside, rfl⟩ := Option.map_eq_some_iff.1 checked
    unfold Stmt.execute Execution.deeper
    cases depth.deeper? with
    | none => exact .throw overflow_named
    | some depth =>
      exact binds_inBlock (binds_executeAll depth body inside) (grows_checkAll body inside)

private theorem binds_executeAll {names after : Names} (depth : Depth) :
    (program : List Stmt) → Stmt.checkAll names program = some after →
      Binds Machine.scope names after (Stmt.executeAll depth program)
  | [], checked => by
    cases checked
    exact .pure ()
  | statement :: more, checked => by
    obtain ⟨middle, first, second⟩ := Stmt.checkAll_cons.1 checked
    exact (binds_execute depth statement first).bind (grows_check statement first) fun _ =>
      binds_executeAll depth more second

end

end Statements

section Calls

/-- A call of the evaluator, with what it is called on. -/
inductive Activation
  | evaluating (depth : Depth) (e : Expr) (scope : Scope)
  | executing (depth : Depth) (statement : Stmt) (m : Machine)
  | executingAll (depth : Depth) (program : List Stmt) (m : Machine)

namespace Activation

def entry : Activation → Scope
  | evaluating _ _ scope => scope
  | executing _ _ m | executingAll _ _ m => m.scope

def exit : Activation → Scope
  | evaluating depth e scope => finalState (e.evaluate depth scope)
  | executing depth statement m => (finalState (statement.execute depth m)).scope
  | executingAll depth program m => (finalState (Stmt.executeAll depth program m)).scope

def Checked (names : Names) : Activation → Prop
  | evaluating _ e _ => e.isScoped names = true
  | executing _ statement _ => ∃ after, statement.check names = some after
  | executingAll _ program _ => ∃ after, Stmt.checkAll names program = some after

end Activation

/-- The operand of an expression that is evaluated first. -/
def Expr.first? : Expr → Option Expr
  | .literal _ | .reference _ => none
  | .grouping inner | .unary _ inner | .assign _ inner => some inner
  | .binary left _ _ | .comma left _ _ => some left
  | .conditional condition _ _ => some condition

/-- The operand that is evaluated when the first one has this value. -/
def Expr.second? (value : Value) : Expr → Option Expr
  | .binary _ _ right | .comma _ _ right => some right
  | .conditional _ onTrue onFalse => some (if value.holds then onTrue else onFalse)
  | .literal _ | .reference _ | .grouping _ | .unary _ _ | .assign _ _ => none

def Stmt.value? : Stmt → Option Expr
  | .expression value | .print value => some value
  | .declare _ initializer => initializer
  | .block _ => none

/-- The calls that a call makes, each with the stack of the check where it is made. -/
inductive Calls : Names × Activation → Names × Activation → Prop
  | first {names depth inner e operand scope} (further : depth.deeper? = some inner)
      (first : e.first? = some operand) :
      Calls (names, .evaluating depth e scope) (names, .evaluating inner operand scope)
  | second {names depth inner e operand other value scope scope'}
      (further : depth.deeper? = some inner) (first : e.first? = some operand)
      (evaluated : operand.evaluate inner scope = .ok value scope')
      (second : e.second? value = some other) :
      Calls (names, .evaluating depth e scope) (names, .evaluating inner other scope')
  | value {names depth statement e m} (value : statement.value? = some e) :
      Calls (names, .executing depth statement m) (names, .evaluating depth e m.scope)
  | block {names depth inner body m} (further : depth.deeper? = some inner) :
      Calls (names, .executing depth (.block body) m)
        ([] :: names, .executingAll inner body { m with scope := m.scope.opened })
  | statement {names depth statement more m} :
      Calls (names, .executingAll depth (statement :: more) m)
        (names, .executing depth statement m)
  | more {names names' depth statement more m m'}
      (executed : statement.execute depth m = .ok () m')
      (checked : statement.check names = some names') :
      Calls (names, .executingAll depth (statement :: more) m)
        (names', .executingAll depth more m')

section Operands
variable {names : Names} {e operand : Expr}

private theorem isScoped_first (known : e.isScoped names = true) (first : e.first? = some operand) :
    operand.isScoped names = true := by
  cases e <;> cases first <;> simp_all [Expr.isScoped]

private theorem isScoped_second {value : Value} (known : e.isScoped names = true)
    (second : e.second? value = some operand) : operand.isScoped names = true := by
  cases e <;> cases second <;> simp_all [Expr.isScoped]
  split <;> simp_all

private theorem isScoped_value {statement : Stmt} {after : Names}
    (checked : statement.check names = some after) (value : statement.value? = some e) :
    e.isScoped names = true := by
  cases statement with
  | block body => cases value
  | expression value' | print value' =>
    cases value
    exact (Option.ite_none_right_eq_some.1 checked).1
  | declare name initializer =>
    cases value
    exact (Option.ite_none_right_eq_some.1 checked).1

end Operands

/-- The names of the call are known, and the scopes in which it begins bind them. -/
structure Sound (point : Names × Activation) : Prop where
  checked : point.2.Checked point.1
  covers : Covers point.1 point.2.entry

theorem Bound.exit {σ α : Type} {view : σ → Scope} {before after : Names}
    {result : EStateM.Result Failure σ α} (bound : Bound view before after result)
    (grows : Grows before after) (here : before ≠ []) :
    Covers before (view (finalState result)) := by
  cases bound with
  | ok covered => exact covered.fewer grows here
  | error named covered => exact covered

theorem Sound.exit {point : Names × Activation} (sound : Sound point) :
    Covers point.1 point.2.exit := by
  obtain ⟨names, activation⟩ := point
  obtain ⟨checked, covers⟩ := sound
  cases activation with
  | evaluating depth e scope =>
    exact (binds_evaluate checked depth scope covers).exit (.refl names) covers.ne_nil
  | executing depth statement m =>
    obtain ⟨after, checked⟩ := checked
    exact (binds_execute depth statement checked m covers).exit (grows_check statement checked)
      covers.ne_nil
  | executingAll depth program m =>
    obtain ⟨after, checked⟩ := checked
    exact (binds_executeAll depth program checked m covers).exit (grows_checkAll program checked)
      covers.ne_nil

/-- One case a call: what is called is checked too, and begins where the names are bound. -/
private theorem sound_of_calls {point point' : Names × Activation} (sound : Sound point)
    (calls : Calls point point') : Sound point' := by
  obtain ⟨checked, covers⟩ := sound
  cases calls with
  | first further first => exact ⟨isScoped_first checked first, covers⟩
  | @second names depth inner e operand other value scope scope' further first evaluated second =>
    have ran := binds_evaluate (isScoped_first checked first) inner scope covers
    rw [evaluated] at ran
    cases ran with
    | ok covered => exact ⟨isScoped_second checked second, covered⟩
  | value value =>
    obtain ⟨after, checked⟩ := checked
    exact ⟨isScoped_value checked value, covers⟩
  | block further =>
    obtain ⟨after, checked⟩ := checked
    obtain ⟨inner, inside, -⟩ := Option.map_eq_some_iff.1 checked
    exact ⟨⟨inner, inside⟩, covers.opened⟩
  | @statement names depth statement more m =>
    obtain ⟨after, checked⟩ := checked
    obtain ⟨middle, first, -⟩ := Stmt.checkAll_cons.1 checked
    exact ⟨⟨middle, first⟩, covers⟩
  | @more names names' depth statement more m m' executed first =>
    obtain ⟨after, checked⟩ := checked
    have ran := binds_execute depth statement first m covers
    rw [executed] at ran
    simp only [Stmt.checkAll, first] at checked
    cases ran with
    | ok covered => exact ⟨⟨after, checked⟩, covered⟩

private theorem sound_of_run {point point' : Names × Activation} (sound : Sound point)
    (run : ReflTransGen Calls point point') : Sound point' := by
  induction run with
  | refl => exact sound
  | tail _ last ih => exact sound_of_calls ih last

end Calls

/-- A program whose names are checked does not fail for a name without a value, from any
global variables that have the names it starts with. Throughout its run the scopes bind the
names of the stack, at the beginning of each call and at its end. -/
theorem interpret_scoped (depth : Depth) {known : List String} {program : List Stmt}
    {globals : Frame} (checked : (Stmt.checkAll [known] program).isSome = true)
    (bound : ∀ name ∈ known, globals.has name = true) :
    (∀ name, (interpret depth program globals).failure ≠
        some (.raised (.undefinedVariable name))) ∧
      ∀ names activation,
        ReflTransGen Calls ([known], .executingAll depth program ⟨.global globals, ""⟩)
          (names, activation) →
        Covers names activation.entry ∧ Covers names activation.exit := by
  obtain ⟨after, checked⟩ := Option.isSome_iff_exists.1 checked
  have begins : Covers [known] (.global globals) := .global bound
  constructor
  · intro name failed
    have ran := binds_executeAll depth program checked ⟨.global globals, ""⟩ begins
    unfold interpret at failed
    generalize Stmt.executeAll depth program ⟨.global globals, ""⟩ = result at ran failed
    cases ran with
    | ok covered => cases failed
    | error named covered => exact named name (Option.some.inj failed)
  · intro names activation run
    have starts : Sound ([known], .executingAll depth program ⟨.global globals, ""⟩) :=
      ⟨⟨after, checked⟩, begins⟩
    have sound := sound_of_run starts run
    exact ⟨sound.covers, sound.exit⟩

/-- A block declares a variable and reads it in a block inside; what fails is a minus. -/
theorem interpret_scoped_blocks :
    let a : Token := ⟨.identifier, "a", 1, .nil⟩
    let b : Token := ⟨.identifier, "b", 1, .nil⟩
    let inside : Stmt := .block [.declare b (some (.assign a (.literal (.truth true)))),
      .block [.print (.reference b)], .expression (.unary (.plain .minus 1) (.reference b))]
    let program := [.declare b (some (.reference a)), inside]
    (Stmt.checkAll [["a"]] program).isSome = true ∧
      (interpret .standard program ⟨[("a", .nil)]⟩).failure =
        some (.raised (.operandNotNumber (.plain .minus 1))) ∧
      (∀ name, (interpret .standard program ⟨[("a", .nil)]⟩).failure ≠
        some (.raised (.undefinedVariable name))) ∧
      Covers [["b", "a"]]
        (Activation.executing .standard inside
          ⟨.global ⟨[("a", .nil), ("b", .nil)]⟩, ""⟩).exit := by
  intro a b inside program
  have checked : (Stmt.checkAll [["a"]] program).isSome = true := by decide
  have bound : ∀ name ∈ ["a"], Frame.has ⟨[("a", .nil)]⟩ name = true := by decide
  have safe := interpret_scoped .standard checked bound
  refine ⟨checked, by decide +kernel, safe.1, (safe.2 _ _ ?_).2⟩
  exact (ReflTransGen.single (.more rfl rfl)).tail .statement

example :
    Stmt.checkAll [["a"]] [.block [.print (.reference ⟨.identifier, "b", 1, .nil⟩),
      .declare ⟨.identifier, "b", 1, .nil⟩ none]] = none := by
  rfl

end Scriptlet
