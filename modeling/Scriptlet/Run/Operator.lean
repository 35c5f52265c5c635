import Scriptlet.Token.Basic

/-! Errors of a running program, and operators on values. Each error but one points at a
token, an operator or a name. The kind of an operator's token decides, its text plays no
part: equality takes any two values, addition two numbers or anything with a text, all
others take numbers. An operator of a kind that has no meaning is not an error of the
program, as no parse makes one; it is kept apart. -/
namespace Scriptlet

inductive RuntimeError
  | undefinedVariable (name : Token)
  | operandNotNumber (operator : Token)
  | operandsNotNumbers (operator : Token)
  | operandsNotAddable (operator : Token)
  | divisionByZero (operator : Token)
  | stackOverflow
  deriving DecidableEq, Inhabited

namespace RuntimeError

def token? : RuntimeError → Option Token
  | undefinedVariable t | operandNotNumber t | operandsNotNumbers t | operandsNotAddable t
  | divisionByZero t => some t
  | stackOverflow => none

def message : RuntimeError → String
  | undefinedVariable name => "Undefined variable '" ++ name.lexeme ++ "'."
  | operandNotNumber _ => "Operand must be a number."
  | operandsNotNumbers _ => "Operands must be numbers."
  | operandsNotAddable _ => "Operands must be two numbers or include a string."
  | divisionByZero _ => "Division by zero."
  | stackOverflow => "Expression nested too deeply to evaluate."

def category : RuntimeError → String
  | undefinedVariable _ => "UNDEFINED_VARIABLE"
  | operandNotNumber _ | operandsNotNumbers _ | operandsNotAddable _ => "TYPE_ERROR"
  | divisionByZero _ => "DIVISION_BY_ZERO"
  | stackOverflow => "STACK_OVERFLOW"

def report (e : RuntimeError) : String :=
  match e.token? with
  | some t => e.message ++ "\n[line " ++ toString t.line ++ "]"
  | none => e.message

end RuntimeError

inductive Failure
  | raised (error : RuntimeError)
  | unknownOperator (operator : Token)
  deriving DecidableEq, Inhabited

namespace Operator

def unary (operator : Token) (right : Value) : Except Failure Value :=
  match operator.kind with
  | .bang => .ok (.truth !right.holds)
  | .minus =>
    match right with
    | .number n => .ok (.number n.neg)
    | _ => .error (.raised (.operandNotNumber operator))
  | _ => .error (.unknownOperator operator)

def sum (operator : Token) : Value → Value → Except Failure Value
  | .number a, .number b => .ok (.number (a.add b))
  | .text a, right => .ok (.text (a ++ right.shown))
  | left, .text b => .ok (.text (left.shown ++ b))
  | _, _ => .error (.raised (.operandsNotAddable operator))

def quotient (operator : Token) (a b : Number) : Except Failure Value :=
  if b.isZero then .error (.raised (.divisionByZero operator)) else .ok (.number (a.div b))

def numeric (operator : Token) (a b : Number) : Except Failure Value :=
  match operator.kind with
  | .greater => .ok (.truth (b.less a))
  | .greaterEqual => .ok (.truth (b.lessOrSame a))
  | .less => .ok (.truth (a.less b))
  | .lessEqual => .ok (.truth (a.lessOrSame b))
  | .minus => .ok (.number (a.sub b))
  | .star => .ok (.number (a.mul b))
  | .slash => quotient operator a b
  | _ => .error (.unknownOperator operator)

def binary (operator : Token) (left right : Value) : Except Failure Value :=
  match operator.kind with
  | .bangEqual => .ok (.truth !left.same right)
  | .equalEqual => .ok (.truth (left.same right))
  | .plus => sum operator left right
  | _ =>
    match left, right with
    | .number a, .number b => numeric operator a b
    | _, _ => .error (.raised (.operandsNotNumbers operator))

end Operator

end Scriptlet
