import Mathlib.Data.List.Basic
import Scriptlet.Run.Execute

/-! Blocks without a chain of scopes: one flat store that holds what every name
means at present, and for each open block a log of what the names it declares
meant before it. A block that ends, normally or by a failure, has its log
undone. Running programs this way is a second semantics, which says what block
scoping means; it has no bound on depth and knows no frames. -/
namespace Scriptlet

namespace Flat

/-- What the names mean, in the order in which they came to mean something. -/
structure Store where
  entries : List (String × Value)

namespace Store

def get? (store : Store) (name : String) : Option Value :=
  (store.entries.find? (·.1 == name)).map (·.2)

def has (store : Store) (name : String) : Bool := store.entries.any (·.1 == name)

/-- A name that means something keeps its place, another one comes last. -/
def set (store : Store) (name : String) (value : Value) : Store where
  entries :=
    if store.has name then
      store.entries.replaceF fun entry => if entry.1 = name then some (name, value) else none
    else store.entries ++ [(name, value)]

def forget (store : Store) (name : String) : Store := ⟨store.entries.filter (·.1 != name)⟩

end Store

/-- What the names that a block declares meant before it, the latest first. -/
abbrev Log := List (String × Option Value)

namespace Log

def has (log : Log) (name : String) : Bool := log.any fun entry => entry.1 == name

/-- Records what a name means in the store, unless the block has declared it before. -/
def record (log : Log) (store : Store) (name : String) : Log :=
  if log.has name then log else (name, store.get? name) :: log

def restore (store : Store) : String × Option Value → Store
  | (name, some value) => store.set name value
  | (name, none) => store.forget name

@[simp] theorem restore_some (store : Store) (name : String) (value : Value) :
    restore store (name, some value) = store.set name value := rfl

@[simp] theorem restore_none (store : Store) (name : String) :
    restore store (name, none) = store.forget name := rfl

def undo (log : Log) (store : Store) : Store := log.foldl restore store

end Log

/-- The store, the logs of the open blocks, the innermost first, and the text
printed so far. -/
structure Machine where
  store : Store
  logs : List Log
  output : String

namespace Machine

def declare (m : Machine) (name : String) (value : Value) : Machine :=
  { m with
    store := m.store.set name value
    logs := match m.logs with
      | [] => []
      | log :: logs => log.record m.store name :: logs }

def opened (m : Machine) : Machine := { m with logs := [] :: m.logs }

def closed (m : Machine) : Machine :=
  match m.logs with
  | [] => m
  | log :: logs => { m with store := log.undo m.store, logs := logs }

end Machine

abbrev Evaluation := EStateM Failure Store

abbrev Execution := EStateM Failure Machine

def lookup (name : Token) : Evaluation Value := fun store =>
  match store.get? name.lexeme with
  | some value => .ok value store
  | none => .error (.raised (.undefinedVariable name)) store

def overwrite (name : Token) (value : Value) : Evaluation Unit := fun store =>
  if store.has name.lexeme then .ok () (store.set name.lexeme value)
  else .error (.raised (.undefinedVariable name)) store

def settle {α : Type} (result : Except Failure α) : Evaluation α := fun store =>
  match result with
  | .ok a => .ok a store
  | .error failure => .error failure store

def evaluate : Expr → Evaluation Value
  | .literal value => return value
  | .grouping inner => evaluate inner
  | .unary operator right => do
    let b ← evaluate right
    settle (Operator.unary operator b)
  | .binary left operator right => do
    let a ← evaluate left
    let b ← evaluate right
    settle (Operator.binary operator a b)
  | .comma left _ right => do
    let _ ← evaluate left
    evaluate right
  | .conditional condition onTrue onFalse => do
    let c ← evaluate condition
    if c.holds then evaluate onTrue else evaluate onFalse
  | .reference name => lookup name
  | .assign name value => do
    let v ← evaluate value
    overwrite name v
    return v

def evaluated {α : Type} (evaluation : Evaluation α) : Execution α := fun m =>
  match evaluation m.store with
  | .ok a store => .ok a { m with store := store }
  | .error failure store => .error failure { m with store := store }

def emit (value : Value) : Execution Unit := fun m =>
  .ok () { m with output := m.output ++ value.shown ++ "\n" }

def declare (name : Token) (value : Value) : Execution Unit := fun m =>
  .ok () (m.declare name.lexeme value)

def inBlock {α : Type} (body : Execution α) : Execution α := fun m =>
  match body m.opened with
  | .ok a m => .ok a m.closed
  | .error failure m => .error failure m.closed

mutual

def execute : Stmt → Execution Unit
  | .expression value => do
    let _ ← evaluated (evaluate value)
  | .print value => do emit (← evaluated (evaluate value))
  | .declare name none => declare name .nil
  | .declare name (some initializer) => do
    declare name (← evaluated (evaluate initializer))
  | .block body => inBlock (executeAll body)

def executeAll : List Stmt → Execution Unit
  | [] => return ()
  | statement :: more => do
    execute statement
    executeAll more

end

def interpret (program : List Stmt) (globals : Frame) : Outcome :=
  match executeAll program ⟨⟨globals.bindings⟩, [], ""⟩ with
  | .ok _ m => ⟨⟨m.store.entries⟩, m.output, none⟩
  | .error failure m => ⟨⟨m.store.entries⟩, m.output, some failure⟩

end Flat

end Scriptlet
