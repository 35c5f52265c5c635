import Scriptlet.Run.Operator
import Scriptlet.Scope.Basic

/-! Scopes that stay in use side by side. Scope 0 is the global one; every other scope has a
parent that is older than itself, so looking outwards ends. The binder of a name for a scope
is the nearest scope outwards that has it. An operation on a name that no scope outwards has
fails with the token of the name, and the forest stays as it was. -/
namespace Scriptlet

/-- One scope of a forest: its own variables and the number of its parent. -/
structure Scope.Node where
  frame : Frame
  parent : Option Nat
  deriving Inhabited

structure Scope.Forest where
  nodes : Array Scope.Node
  deriving Inhabited

namespace Scope.Forest

def initial : Forest := ⟨#[⟨.empty, none⟩]⟩

/-- The nearest scope outwards that has the name. -/
def binder? (forest : Forest) (scope : Nat) (name : String) : Option Nat :=
  match forest.nodes[scope]? with
  | none => none
  | some node =>
    if node.frame.has name then some scope
    else match node.parent with
      | none => none
      | some parent => if parent < scope then forest.binder? parent name else none
termination_by scope

def child (forest : Forest) (scope : Nat) : Nat × Forest :=
  (forest.nodes.size, ⟨forest.nodes.push ⟨.empty, some scope⟩⟩)

def define (forest : Forest) (scope : Nat) (name : String) (value : Value) : Forest :=
  ⟨forest.nodes.modify scope fun node => { node with frame := node.frame.define name value }⟩

def get? (forest : Forest) (scope : Nat) (name : String) : Option Value := do
  let node ← forest.nodes[← forest.binder? scope name]?
  node.frame.get? name

/-- Sets the variable that a name means in a scope, if there is one. -/
def assign? (forest : Forest) (scope : Nat) (name : String) (value : Value) : Option Forest := do
  return forest.define (← forest.binder? scope name) name value

inductive Operation
  | child (scope : Nat)
  | define (scope : Nat) (name : String) (value : Value)
  | get (scope : Nat) (name : Token)
  | assign (scope : Nat) (name : Token) (value : Value)
  deriving DecidableEq, Inhabited

def Operation.scope : Operation → Nat
  | child scope | define scope _ _ | get scope _ | assign scope _ _ => scope

inductive Answer
  | created (scope : Nat)
  | done
  | found (value : Value)
  deriving DecidableEq, Inhabited

def perform (forest : Forest) : Operation → Except RuntimeError Answer × Forest
  | .child scope => (.ok (.created (forest.child scope).1), (forest.child scope).2)
  | .define scope name value => (.ok .done, forest.define scope name value)
  | .get scope name =>
    match forest.get? scope name.lexeme with
    | some value => (.ok (.found value), forest)
    | none => (.error (.undefinedVariable name), forest)
  | .assign scope name value =>
    match forest.assign? scope name.lexeme value with
    | some forest => (.ok .done, forest)
    | none => (.error (.undefinedVariable name), forest)

end Scope.Forest

end Scriptlet
