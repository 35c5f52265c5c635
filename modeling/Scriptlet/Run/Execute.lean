import Scriptlet.Run.Evaluate

/-! Running statements. A block runs in a scope of its own, which ends with the
block also where a statement fails. A program runs up to its first failure. -/
namespace Scriptlet

structure Machine where
  scope : Scope
  output : String
  deriving DecidableEq, Inhabited

abbrev Execution := EStateM Failure Machine

namespace Execution

def evaluated {α : Type} (evaluation : Evaluation α) : Execution α := fun m =>
  match evaluation m.scope with
  | .ok a scope => .ok a { m with scope := scope }
  | .error failure scope => .error failure { m with scope := scope }

def emit (value : Value) : Execution Unit := fun m =>
  .ok () { m with output := m.output ++ value.shown ++ "\n" }

def define (name : Token) (value : Value) : Execution Unit := fun m =>
  .ok () { m with scope := m.scope.define name.lexeme value }

def inBlock {α : Type} (body : Execution α) : Execution α := fun m =>
  match body { m with scope := m.scope.opened } with
  | .ok a m => .ok a { m with scope := m.scope.closed }
  | .error failure m => .error failure { m with scope := m.scope.closed }

def deeper {α : Type} (depth : Depth) (body : Depth → Execution α) : Execution α :=
  match depth.deeper? with
  | some depth => body depth
  | none => throw (.raised .stackOverflow)

end Execution

open Execution

mutual

def Stmt.execute (depth : Depth) : Stmt → Execution Unit
  | .expression value => do
    let _ ← evaluated (value.evaluate depth)
  | .print value => do emit (← evaluated (value.evaluate depth))
  | .declare name none => define name .nil
  | .declare name (some initializer) => do
    define name (← evaluated (initializer.evaluate depth))
  | .block body => deeper depth fun depth => inBlock (Stmt.executeAll depth body)

def Stmt.executeAll (depth : Depth) : List Stmt → Execution Unit
  | [] => return ()
  | statement :: more => do
    statement.execute depth
    Stmt.executeAll depth more

end

structure Outcome where
  globals : Frame
  output : String
  failure : Option Failure
  deriving Inhabited

def interpret (depth : Depth) (program : List Stmt) (globals : Frame) : Outcome :=
  match Stmt.executeAll depth program ⟨.global globals, ""⟩ with
  | .ok _ m => ⟨m.scope.globals, m.output, none⟩
  | .error failure m => ⟨m.scope.globals, m.output, some failure⟩

/-- The value of an expression in the given global variables, and those after it. -/
def evaluateIn (depth : Depth) (e : Expr) (globals : Frame) : Except Failure Value × Frame :=
  match e.evaluate depth (.global globals) with
  | .ok value scope => (.ok value, scope.globals)
  | .error failure scope => (.error failure, scope.globals)

end Scriptlet
