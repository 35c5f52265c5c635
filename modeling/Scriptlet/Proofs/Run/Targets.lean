import Scriptlet.Proofs.Run.Anchored
import Scriptlet.Proofs.Run.Sequence
import Scriptlet.Proofs.Scope.Levels

/-! What a statement may change. Its free targets are the names that its expressions assign,
in a block without those that the block has declared before. Whether a statement completes or
fails, and at whatever depth, no scope around it gains or loses a name, the scope it runs in
gains a name only by a declaration that completes, and apart from that only the nearest
variables of its free targets get other values. -/
namespace Scriptlet

/-- The names that an expression assigns. -/
def Expr.targets : Expr → List String
  | .literal _ | .reference _ => []
  | .grouping inner | .unary _ inner => inner.targets
  | .binary left _ right | .comma left _ right => left.targets ++ right.targets
  | .conditional condition onTrue onFalse =>
    condition.targets ++ (onTrue.targets ++ onFalse.targets)
  | .assign name value => value.targets ++ [name.lexeme]

def Stmt.declared : Stmt → List String
  | .declare name _ => [name.lexeme]
  | .expression _ | .print _ | .block _ => []

mutual

/-- The names that a statement assigns outside the blocks that declare them. -/
def Stmt.targets : Stmt → List String
  | .expression value | .print value | .declare _ (some value) => value.targets
  | .declare _ none => []
  | .block body => Stmt.bodyTargets body

/-- Those of statements in order, each without what the earlier ones have declared. -/
def Stmt.bodyTargets : List Stmt → List String
  | [] => []
  | statement :: more =>
    statement.targets ++ (Stmt.bodyTargets more).filter (· ∉ statement.declared)

end

section Runs
variable {σ α β : Type} {view : σ → Scope} {declared targets targets' : List String}

/-- A run that completes has declared these names, one that fails has declared none. -/
inductive Confined (view : σ → Scope) (declared targets : List String) (before : Scope) :
    EStateM.Result Failure σ α → Prop
  | ok {a s} (alters : Alters declared targets before (view s)) :
      Confined view declared targets before (.ok a s)
  | error {failure s} (alters : Alters [] targets before (view s)) :
      Confined view declared targets before (.error failure s)

def Confines (view : σ → Scope) (declared targets : List String) (p : EStateM Failure σ α) : Prop :=
  ∀ s, Confined view declared targets (view s) (p s)

theorem Confined.final {before : Scope} {result : EStateM.Result Failure σ α}
    (confined : Confined view declared targets before result) :
    ∃ gained, Alters gained targets before (view (finalState result)) ∧
      ∀ name, name ∈ gained ↔ name ∈ declared ∧ ∃ a s, result = .ok a s := by
  cases confined with
  | @ok a s alters => exact ⟨declared, alters, fun name => by simp⟩
  | error alters => exact ⟨[], alters, fun name => by simp⟩

namespace Confines
variable {p : EStateM Failure σ α}

theorem pure (a : α) : Confines view [] [] (Pure.pure a : EStateM Failure σ α) :=
  fun s => .ok (.refl [] (view s))

theorem throw (failure : Failure) :
    Confines view declared targets (MonadExcept.throw failure : EStateM Failure σ α) :=
  fun s => .error (.refl targets (view s))

theorem widen (confines : Confines view declared targets p) (fewer : targets ⊆ targets') :
    Confines view declared targets' p := by
  intro s
  have ran := confines s
  generalize p s = result at ran ⊢
  cases ran with
  | ok alters => exact .ok (alters.widen fewer)
  | error alters => exact .error (alters.widen fewer)

theorem bind {f : α → EStateM Failure σ β} (first : Confines view [] targets p)
    (more : ∀ a, Confines view declared targets' (f a)) :
    Confines view declared (targets ++ targets') (p >>= f) := by
  intro s
  have began := first s
  have unfiltered : targets'.filter (· ∉ ([] : List String)) = targets' := by simp
  change Confined view declared (targets ++ targets') (view s) (EStateM.bind p f s)
  unfold EStateM.bind
  generalize p s = result at began
  cases began with
  | error alters => exact .error (alters.widen (List.subset_append_left _ _))
  | @ok a middle alters =>
    have ended := more a middle
    dsimp only
    generalize f a middle = result at ended
    cases ended with
    | ok later => exact .ok (unfiltered ▸ alters.trans later)
    | error later => exact .error (unfiltered ▸ alters.trans later)

end Confines

end Runs

section Expressions

private theorem confines_settle {α : Type} (result : Except Failure α) :
    Confines id [] [] (Evaluation.settle result) := by
  intro scope
  cases result with
  | ok a => exact .ok (.refl [] scope)
  | error failure => exact .error (.refl [] scope)

private theorem confines_lookup (name : Token) : Confines id [] [] (Evaluation.lookup name) := by
  intro scope
  unfold Evaluation.lookup
  cases scope.get? name.lexeme with
  | some value => exact .ok (.refl [] scope)
  | none => exact .error (.refl [] scope)

private theorem confines_store (name : Token) (value : Value) :
    Confines id [] [name.lexeme] (Evaluation.store name value) := by
  intro scope
  unfold Evaluation.store
  cases assigned : scope.assign? name.lexeme value with
  | some scope' => exact .ok (.assign? assigned)
  | none => exact .error (.refl _ scope)

private theorem confines_deeper {α : Type} {targets : List String} {depth : Depth}
    {p : Depth → Evaluation α} (each : ∀ depth, Confines id [] targets (p depth)) :
    Confines id [] targets (Evaluation.deeper depth p) := by
  unfold Evaluation.deeper
  cases depth.deeper? with
  | none => exact .throw _
  | some depth => exact each depth

/-- One case a constructor: an expression declares nothing, and assigns its targets only. -/
private theorem confines_evaluate (e : Expr) (depth : Depth) :
    Confines id [] e.targets (e.evaluate depth) := by
  induction e generalizing depth with
  | literal value => exact confines_deeper fun _ => .pure value
  | grouping inner ih => exact confines_deeper fun depth => ih depth
  | unary operator right ih =>
    refine confines_deeper fun depth => ?_
    have whole := (ih depth).bind fun b => confines_settle (Operator.unary operator b)
    rwa [List.append_nil] at whole
  | binary left operator right leftIH rightIH =>
    refine confines_deeper fun depth => ?_
    refine (leftIH depth).bind fun a => ?_
    have whole := (rightIH depth).bind fun b => confines_settle (Operator.binary operator a b)
    rwa [List.append_nil] at whole
  | comma left operator right leftIH rightIH =>
    exact confines_deeper fun depth => (leftIH depth).bind fun _ => rightIH depth
  | conditional condition onTrue onFalse ih trueIH falseIH =>
    refine confines_deeper fun depth => (ih depth).bind fun c => ?_
    -- the targets of the branch that is not taken count as well
    split
    · exact (trueIH depth).widen (List.subset_append_left _ _)
    · exact (falseIH depth).widen (List.subset_append_right _ _)
  | reference name => exact confines_deeper fun _ => confines_lookup name
  | assign name value ih =>
    refine confines_deeper fun depth => (ih depth).bind fun v => ?_
    have whole := (confines_store name v).bind fun _ => Confines.pure v
    rwa [List.append_nil] at whole

end Expressions

section Statements

private theorem confines_evaluated {α : Type} {targets : List String} {p : Evaluation α}
    (inside : Confines id [] targets p) :
    Confines Machine.scope [] targets (Execution.evaluated p) := by
  intro m
  have ran := inside m.scope
  unfold Execution.evaluated
  generalize p m.scope = result at ran
  cases ran with
  | ok alters => exact .ok alters
  | error alters => exact .error alters

private theorem confines_emit (value : Value) : Confines Machine.scope [] [] (Execution.emit value) :=
  fun m => .ok (.refl [] m.scope)

private theorem confines_define (name : Token) (value : Value) :
    Confines Machine.scope [name.lexeme] [] (Execution.define name value) :=
  fun m => .ok (.define name.lexeme value m.scope)

private theorem confines_inBlock {α : Type} {targets : List String} {p : Execution α}
    (inside : ∀ m, ∃ declared, Alters declared targets m.scope (finalState (p m)).scope) :
    Confines Machine.scope [] targets (Execution.inBlock p) := by
  intro m
  obtain ⟨declared, alters⟩ := inside { m with scope := m.scope.opened }
  unfold Execution.inBlock
  generalize p _ = result at alters
  cases result with
  | ok a m' => exact .ok alters.closed
  | error failure m' => exact .error alters.closed

/-- Statements of which the completed ones have declared their names. -/
def ConfinesAll (program : List Stmt) (before after : Scope) : Prop :=
  ∃ completed, completed <+: program ∧
    Alters (completed.flatMap Stmt.declared) (Stmt.bodyTargets program) before after

private theorem confinesAll_cons {depth : Depth} {statement : Stmt} {more : List Stmt} {m : Machine}
    (first : Confined Machine.scope statement.declared statement.targets m.scope
      (statement.execute depth m))
    (rest : ∀ m, ConfinesAll more m.scope (finalState (Stmt.executeAll depth more m)).scope) :
    ConfinesAll (statement :: more) m.scope
      (finalState (Stmt.executeAll depth (statement :: more) m)).scope := by
  rw [executeAll_cons]
  generalize statement.execute depth m = result at first ⊢
  cases first with
  | error alters =>
    exact ⟨[], List.nil_prefix, alters.widen (List.subset_append_left _ _)⟩
  | @ok _ middle alters =>
    obtain ⟨completed, begins, later⟩ := rest middle
    refine ⟨statement :: completed, List.cons_prefix_cons.2 ⟨rfl, begins⟩, ?_⟩
    rw [List.flatMap_cons]
    exact alters.trans later

mutual

private theorem confines_execute (depth : Depth) :
    (statement : Stmt) →
      Confines Machine.scope statement.declared statement.targets (statement.execute depth)
  | .expression value => by
    have whole := (confines_evaluated (confines_evaluate value depth)).bind fun _ =>
      Confines.pure ()
    rwa [List.append_nil] at whole
  | .print value => by
    have whole := (confines_evaluated (confines_evaluate value depth)).bind confines_emit
    rwa [List.append_nil] at whole
  | .declare name none => confines_define name .nil
  | .declare name (some initializer) => by
    have whole := (confines_evaluated (confines_evaluate initializer depth)).bind
      (confines_define name)
    rwa [List.append_nil] at whole
  | .block body => by
    unfold Stmt.execute Execution.deeper
    cases depth.deeper? with
    | none => exact .throw _
    | some depth =>
      refine confines_inBlock fun m => ?_
      obtain ⟨completed, _, alters⟩ := confinesAll_executeAll depth body m
      exact ⟨_, alters⟩

private theorem confinesAll_executeAll (depth : Depth) :
    (program : List Stmt) → (m : Machine) →
      ConfinesAll program m.scope (finalState (Stmt.executeAll depth program m)).scope
  | [], m => ⟨[], List.nil_prefix, .refl [] m.scope⟩
  | statement :: more, m =>
    confinesAll_cons (confines_execute depth statement m) (confinesAll_executeAll depth more)

end

/-- Whether a statement completes or fails: no scope around the one it runs in gains or loses a
name; that one loses none, and gains at most the name that the statement declares, where it
completes; and a variable keeps its value, unless the statement declares it there, or it is a
free target and the variable the nearest one where the statement starts. Evaluating an
expression changes the names of no scope. -/
theorem execute_confined (depth : Depth) :
    (∀ (statement : Stmt) (m : Machine),
      let ran := statement.execute depth m
      let after := (finalState ran).scope
      after.height = m.scope.height ∧
      (∀ level name, after.Binds (level + 1) name ↔ m.scope.Binds (level + 1) name) ∧
      (∀ name, after.Binds 0 name ↔
        m.scope.Binds 0 name ∨ (name ∈ statement.declared ∧ ∃ done m', ran = .ok done m')) ∧
      ∀ level name value, m.scope.own? level name = some value →
        after.own? level name = some value ∨
          (level = 0 ∧ name ∈ statement.declared ∧ ∃ done m', ran = .ok done m') ∨
          (name ∈ statement.targets ∧ m.scope.Nearest level name)) ∧
    ∀ (e : Expr) (scope : Scope),
      let after := finalState (e.evaluate depth scope)
      after.height = scope.height ∧
        ∀ level name, after.Binds level name ↔ scope.Binds level name := by
  constructor
  · intro statement m ran after
    obtain ⟨gained, alters, exactly⟩ := (confines_execute depth statement m).final
    refine ⟨alters.height, alters.enclosing, fun name => ?_, fun level name value found => ?_⟩
    · rw [alters.innermost, exactly]
    · have kept := alters.values level name value found
      rwa [exactly] at kept
  · intro e scope after
    obtain ⟨gained, alters, exactly⟩ := (confines_evaluate e depth scope).final
    have none_gained : ∀ name, name ∉ gained := by simp [exactly]
    exact ⟨alters.height, fun level name => alters.binds_iff (none_gained name) level⟩

/-- A block that declares `b`, assigns `b` and `a` and then fails: the name `a` is its only
target, so the `b` around it has its value still. -/
theorem execute_confined_shadowed :
    let a : Token := ⟨.identifier, "a", 1, .nil⟩
    let b : Token := ⟨.identifier, "b", 1, .nil⟩
    let truth : Expr := .literal (.truth true)
    let block : Stmt := .block
      [.declare b none, .expression (.assign b truth), .expression (.assign a truth),
        .expression (.unary ⟨.minus, "-", 2, .nil⟩ (.reference a))]
    let m : Machine := ⟨.child ⟨[("b", .nil)]⟩ (.global ⟨[("a", .nil)]⟩), ""⟩
    let after := (finalState (block.execute .standard m)).scope
    block.targets = ["a"] ∧ m.scope.own? 0 "b" = some .nil ∧ after.own? 0 "b" = some .nil := by
  intro a b truth block m after
  have targets : block.targets = ["a"] := by decide
  have before : m.scope.own? 0 "b" = some .nil := rfl
  obtain ⟨_, _, _, values⟩ := (execute_confined .standard).1 block m
  refine ⟨targets, before, ?_⟩
  rcases values 0 "b" .nil before with kept | ⟨_, declared, _⟩ | ⟨assigned, _⟩
  · exact kept
  · cases declared
  · rw [targets] at assigned
    exact absurd assigned (by decide)

end Statements

end Scriptlet
