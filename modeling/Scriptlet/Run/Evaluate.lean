import Scriptlet.Program.Basic
import Scriptlet.Run.Operator
import Scriptlet.Scope.Basic

/-! The value of an expression in a scope. Operands are evaluated from left to
right, and what an expression has assigned by the time it fails stays assigned.
Each node inside another takes one level of depth. -/
namespace Scriptlet

abbrev Evaluation := EStateM Failure Scope

namespace Evaluation

def lookup (name : Token) : Evaluation Value := fun scope =>
  match scope.get? name.lexeme with
  | some value => .ok value scope
  | none => .error (.raised (.undefinedVariable name)) scope

def store (name : Token) (value : Value) : Evaluation Unit := fun scope =>
  match scope.assign? name.lexeme value with
  | some scope => .ok () scope
  | none => .error (.raised (.undefinedVariable name)) scope

def settle {α : Type} (result : Except Failure α) : Evaluation α := fun scope =>
  match result with
  | .ok a => .ok a scope
  | .error failure => .error failure scope

def deeper {α : Type} (depth : Depth) (body : Depth → Evaluation α) : Evaluation α :=
  match depth.deeper? with
  | some depth => body depth
  | none => throw (.raised .stackOverflow)

end Evaluation

open Evaluation in
def Expr.evaluate (e : Expr) (depth : Depth) : Evaluation Value :=
  deeper depth fun depth =>
    match e with
    | .literal value => return value
    | .grouping inner => inner.evaluate depth
    | .unary operator right => do
      let b ← right.evaluate depth
      settle (Operator.unary operator b)
    | .binary left operator right => do
      let a ← left.evaluate depth
      let b ← right.evaluate depth
      settle (Operator.binary operator a b)
    | .comma left _ right => do
      let _ ← left.evaluate depth
      right.evaluate depth
    | .conditional condition onTrue onFalse => do
      let c ← condition.evaluate depth
      if c.holds then onTrue.evaluate depth else onFalse.evaluate depth
    | .reference name => lookup name
    | .assign name value => do
      let v ← value.evaluate depth
      store name v
      return v

end Scriptlet
