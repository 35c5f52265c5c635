import Scriptlet.Number.Notation

/-! Values of the language. Only nil and false count as false. Values of
different kinds are never the same. -/
namespace Scriptlet

inductive Value
  | nil
  | truth (value : Bool)
  | number (value : Number)
  | text (value : String)
  deriving DecidableEq, Inhabited

namespace Value

def holds : Value → Bool
  | .nil | .truth false => false
  | _ => true

def isNumber : Value → Bool
  | .number _ => true
  | _ => false

def same : Value → Value → Bool
  | .nil, .nil => true
  | .truth a, .truth b => a == b
  | .number a, .number b => a.same b
  | .text a, .text b => a == b
  | _, _ => false

def shown : Value → String
  | .nil => "nil"
  | .truth true => "true"
  | .truth false => "false"
  | .number n => n.plain
  | .text s => s

def spelled : Value → String
  | .text s => "\"" ++ s ++ "\""
  | .number n => n.literal
  | v => v.shown

def listed : Value → String
  | .nil => "None"
  | .truth true => "True"
  | .truth false => "False"
  | .number n => n.compact
  | .text s => s

end Value

end Scriptlet
