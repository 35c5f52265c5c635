import Scriptlet.Proofs.Run.Simulation
import Scriptlet.Proofs.Scope.Agreement

/-! Chains of scopes refine the flat store: run on states that agree, a program
prints the same, fails the same way and leaves the same global variables, unless
the depth runs out. Every construct of the language is one lemma, the rest is
induction on the tree. -/
namespace Scriptlet.Flat

def Overflow (failure : Failure) : Prop := failure = .raised .stackOverflow

section Expressions
variable {logs : List Log}

/-- The scopes and the store agree, the logs staying as they are. -/
def Meaning (logs : List Log) (scope : Scope) (store : Store) : Prop := Agrees scope store logs

private theorem simulates_settle {α : Type} (result : Except Failure α) :
    Simulates Overflow id (Meaning logs) (Evaluation.settle result) (settle result) := by
  intro scope store agrees
  cases result with
  | error failure => exact .error agrees
  | ok a => exact .ok agrees

private theorem simulates_lookup (name : Token) :
    Simulates Overflow id (Meaning logs) (Evaluation.lookup name) (lookup name) := by
  intro scope store agrees
  unfold Evaluation.lookup lookup
  rw [Agrees.get? agrees]
  cases store.get? name.lexeme with
  | none => exact .error agrees
  | some value => exact .ok agrees

private theorem simulates_store (name : Token) (value : Value) :
    Simulates Overflow id (Meaning logs) (Evaluation.store name value) (overwrite name value) := by
  intro scope store agrees
  unfold Evaluation.store overwrite
  rcases Agrees.assign agrees name.lexeme value with
    ⟨absent, refused⟩ | ⟨present, scope', assigned, after⟩
  · rw [refused, absent]
    exact .error agrees
  · rw [assigned, present]
    exact .ok after

theorem simulates_deeper {α : Type} {depth : Depth} {body : Depth → Scriptlet.Evaluation α}
    {flat : Evaluation α}
    (each : ∀ depth, Simulates Overflow id (Meaning logs) (body depth) flat) :
    Simulates Overflow id (Meaning logs) (Evaluation.deeper depth body) flat := by
  unfold Evaluation.deeper
  cases depth.deeper? with
  | none => exact .throw_excused rfl
  | some depth => exact each depth

theorem simulates_evaluate (e : Expr) (depth : Depth) :
    Simulates Overflow id (Meaning logs) (e.evaluate depth) (evaluate e) := by
  induction e generalizing depth with
  | literal value => exact simulates_deeper fun _ => .pure value
  | grouping inner ih => exact simulates_deeper fun depth => ih depth
  | unary operator right ih =>
    exact simulates_deeper fun depth => (ih depth).bind fun b => simulates_settle _
  | binary left operator right leftIH rightIH =>
    exact simulates_deeper fun depth => (leftIH depth).bind fun a =>
      (rightIH depth).bind fun b => simulates_settle _
  | comma left operator right leftIH rightIH =>
    exact simulates_deeper fun depth => (leftIH depth).bind fun _ => rightIH depth
  | conditional condition onTrue onFalse ih trueIH falseIH =>
    refine simulates_deeper fun depth => (ih depth).bind fun c => ?_
    split
    · exact trueIH depth
    · exact falseIH depth
  | reference name => exact simulates_deeper fun _ => simulates_lookup name
  | assign name value ih =>
    exact simulates_deeper fun depth => (ih depth).bind fun v =>
      (simulates_store name v).bind fun _ => .pure v

end Expressions

section Statements
variable {levels : Nat}

/-- The machines agree, have printed the same, and are inside so many blocks. -/
structure Alongside (levels : Nat) (m : Scriptlet.Machine) (n : Machine) : Prop where
  agrees : Agrees m.scope n.store n.logs
  output : m.output = n.output
  levels : n.logs.length = levels

private theorem simulates_evaluated {α : Type} {evaluation : Scriptlet.Evaluation α} {flat : Evaluation α}
    (each : ∀ logs, Simulates Overflow id (Meaning logs) evaluation flat) :
    Simulates Overflow id (Alongside levels) (Execution.evaluated evaluation) (evaluated flat) := by
  intro m n along
  unfold Execution.evaluated evaluated
  have ends := each n.logs m.scope n.store along.agrees
  generalize evaluation m.scope = left at ends
  generalize flat n.store = right at ends
  cases ends with
  | ok agrees => exact .ok ⟨agrees, along.output, along.levels⟩
  | error agrees => exact .error ⟨agrees, along.output, along.levels⟩
  | excused excuse => exact .excused excuse

private theorem simulates_emit (value : Value) :
    Simulates Overflow id (Alongside levels) (Execution.emit value) (emit value) := by
  intro m n along
  refine .ok ⟨along.agrees, ?_, along.levels⟩
  rw [along.output]

private theorem simulates_declare (name : Token) (value : Value) :
    Simulates Overflow id (Alongside levels) (Execution.define name value)
      (declare name value) := by
  intro m n along
  refine .ok ⟨along.agrees.define name.lexeme value n.output, along.output, ?_⟩
  rw [← along.levels]
  unfold Machine.declare
  cases n.logs <;> rfl

theorem Alongside.opened {m : Scriptlet.Machine} {n : Machine} (along : Alongside levels m n) :
    Alongside (levels + 1) { m with scope := m.scope.opened } n.opened :=
  ⟨along.agrees.opened, along.output, congrArg (· + 1) along.levels⟩

theorem Alongside.closed {m : Scriptlet.Machine} {n : Machine}
    (along : Alongside (levels + 1) m n) :
    Alongside levels { m with scope := m.scope.closed } n.closed := by
  obtain ⟨scope, output⟩ := m
  obtain ⟨store, logs, printed⟩ := n
  obtain ⟨agrees, same, deep⟩ := along
  cases agrees with
  | global frame => cases deep
  | child around reads recorded undone =>
    refine ⟨?_, same, Nat.succ.inj deep⟩
    unfold Machine.closed
    dsimp only
    rw [undone]
    exact around

theorem Alongside.outermost {m : Scriptlet.Machine} {n : Machine} (along : Alongside 0 m n) :
    m.scope = .global n.store.frame := by
  have agrees := along.agrees
  rw [List.eq_nil_of_length_eq_zero along.levels] at agrees
  exact agrees.outermost

private theorem simulates_inBlock {α : Type} {body : Scriptlet.Execution α} {flat : Execution α}
    (inside : Simulates Overflow id (Alongside (levels + 1)) body flat) :
    Simulates Overflow id (Alongside levels) (Execution.inBlock body) (inBlock flat) := by
  intro m n along
  unfold Execution.inBlock inBlock
  have ends := inside _ _ along.opened
  generalize body _ = left at ends
  generalize flat n.opened = right at ends
  cases ends with
  | ok along => exact .ok along.closed
  | error along => exact .error along.closed
  | excused excuse => exact .excused excuse

mutual

private theorem simulates_execute (levels : Nat) (depth : Depth) :
    (statement : Stmt) →
      Simulates Overflow id (Alongside levels) (statement.execute depth) (execute statement)
  | .expression value =>
    (simulates_evaluated fun _ => simulates_evaluate value depth).bind fun _ => .pure ()
  | .print value =>
    (simulates_evaluated fun _ => simulates_evaluate value depth).bind fun v => simulates_emit v
  | .declare name none => simulates_declare name .nil
  | .declare name (some initializer) =>
    (simulates_evaluated fun _ => simulates_evaluate initializer depth).bind fun v =>
      simulates_declare name v
  | .block body => by
    unfold Stmt.execute execute Execution.deeper
    cases depth.deeper? with
    | none => exact .throw_excused rfl
    | some depth => exact simulates_inBlock (simulates_executeAll (levels + 1) depth body)

theorem simulates_executeAll (levels : Nat) (depth : Depth) :
    (program : List Stmt) →
      Simulates Overflow id (Alongside levels) (Stmt.executeAll depth program) (executeAll program)
  | [] => .pure ()
  | statement :: more =>
    (simulates_execute levels depth statement).bind fun _ => simulates_executeAll levels depth more

end

end Statements

/-- A program does the same with a chain of scopes as with one flat store whose
blocks undo their declarations, unless the depth runs out. -/
theorem interpret_eq_flat (depth : Depth) (program : List Stmt) (globals : Frame)
    (room : (Scriptlet.interpret depth program globals).failure ≠ some (.raised .stackOverflow)) :
    Scriptlet.interpret depth program globals = interpret program globals := by
  have ends := simulates_executeAll 0 depth program ⟨.global globals, ""⟩ ⟨⟨globals.bindings⟩, [], ""⟩
    ⟨.global ⟨globals.bindings⟩, rfl, rfl⟩
  unfold Scriptlet.interpret interpret at *
  generalize Stmt.executeAll depth program ⟨.global globals, ""⟩ = left at ends room
  generalize executeAll program ⟨⟨globals.bindings⟩, [], ""⟩ = right at ends
  cases ends with
  | ok along => simp only [along.outermost, Scope.globals, along.output, Store.frame]
  | error along => simp only [along.outermost, Scope.globals, along.output, Store.frame, id]
  | excused excuse => exact absurd (congrArg some excuse) room

/-- A global variable is assigned and then shadowed in a block, inside which an
inner block fails: the assignment stays, all declarations are undone. -/
theorem interpret_eq_flat_shadowed :
    Scriptlet.interpret .standard
        [.block [.expression (.assign ⟨.identifier, "a", 1, .nil⟩ (.literal (.truth true))),
          .declare ⟨.identifier, "a", 2, .nil⟩ none,
          .block [.declare ⟨.identifier, "b", 3, .nil⟩ none,
            .print (.reference ⟨.identifier, "a", 4, .nil⟩),
            .expression (.reference ⟨.identifier, "c", 5, .nil⟩)]]]
        ⟨[("a", .nil)]⟩ =
      interpret
        [.block [.expression (.assign ⟨.identifier, "a", 1, .nil⟩ (.literal (.truth true))),
          .declare ⟨.identifier, "a", 2, .nil⟩ none,
          .block [.declare ⟨.identifier, "b", 3, .nil⟩ none,
            .print (.reference ⟨.identifier, "a", 4, .nil⟩),
            .expression (.reference ⟨.identifier, "c", 5, .nil⟩)]]]
        ⟨[("a", .nil)]⟩ :=
  interpret_eq_flat _ _ _ (by decide +kernel)

example :
    interpret
        [.block [.expression (.assign ⟨.identifier, "a", 1, .nil⟩ (.literal (.truth true))),
          .declare ⟨.identifier, "a", 2, .nil⟩ none,
          .expression (.reference ⟨.identifier, "c", 3, .nil⟩)]]
        ⟨[("a", .nil)]⟩ =
      ⟨⟨[("a", .truth true)]⟩, "",
        some (.raised (.undefinedVariable ⟨.identifier, "c", 3, .nil⟩))⟩ := by rfl

end Scriptlet.Flat
