import Scriptlet.Token.Basic

/-! Syntax errors: a line, a place and a fault. A lexical error is reported
without a place, with the message that its token carries. Nesting that is too
deep for the parser's own recursion reads like nesting past the limit. -/
namespace Scriptlet

inductive Fault
  | lexical (message : Value)
  | tooMuchNesting
  | tooDeep
  | expectedEnd
  | expectedName
  | semicolonAfterDeclaration
  | semicolonAfterValue
  | semicolonAfterExpression
  | braceAfterBlock
  | parenthesisAfterExpression
  | colonAfterExpression
  | invalidTarget
  | missingLeftOperand
  | expectedExpression
  deriving DecidableEq, Inhabited

def Fault.message : Fault → String
  | lexical message => message.listed
  | tooMuchNesting | tooDeep => "Too much nesting"
  | expectedEnd => "Expected end of expression"
  | expectedName => "Expected variable name"
  | semicolonAfterDeclaration => "Expected ';' after variable declaration"
  | semicolonAfterValue => "Expected ';' after value"
  | semicolonAfterExpression => "Expected ';' after expression"
  | braceAfterBlock => "Expected '\x7d' after block"
  | parenthesisAfterExpression => "Expected ')' after expression"
  | colonAfterExpression => "Expected ':' after expression"
  | invalidTarget => "Invalid assignment target"
  | missingLeftOperand => "Expected expression before operator"
  | expectedExpression => "Expected expression"

inductive Place
  | lexeme (text : String)
  | finish
  | unnamed
  deriving DecidableEq, Inhabited

def Place.suffix : Place → String
  | lexeme text => " at '" ++ text ++ "'"
  | finish => " at end"
  | unnamed => ""

structure Diagnostic where
  line : Int
  place : Place
  fault : Fault
  deriving DecidableEq, Inhabited

namespace Diagnostic

def atToken (t : Token) (fault : Fault) : Diagnostic where
  line := t.line
  place := match t.kind with
    | .eof => .finish
    | .error => .unnamed
    | _ => .lexeme t.lexeme
  fault := fault

def lexical (t : Token) : Diagnostic := ⟨t.line, .unnamed, .lexical t.literal⟩

def report (d : Diagnostic) : String :=
  "[line " ++ toString d.line ++ "] Error" ++ d.place.suffix ++ ": " ++ d.fault.message

end Diagnostic

end Scriptlet
