import Scriptlet.Parse.State

/-! The grammar of expressions, loosest rule first: comma, assignment, ternary,
equality, comparison, term, factor, unary, primary. Comma and the binary levels
associate to the left, assignment, ternary and unary to the right. Every use of
a rule is one level of recursion, and groupings and the middle of a ternary
count as nesting. A binary operator without a left operand is reported and its
right operand stands for the whole. The tightest two rules consume the first token
of what they read, at whatever level they are; the others consume one only when a
tighter rule is done, and so has given back levels. -/
namespace Scriptlet.Parse

inductive Rule
  | expression | comma | assignment | ternary
  | equality | comparison | term | factor
  | unary | primary
  deriving DecidableEq, Inhabited

/-- What the first token of an operand says about it. -/
inductive Opening
  | constant (value : Value)
  | name (token : Token)
  | group
  | operator (token : Token) (operand : Rule)

def operandRule? : Kind → Option Rule
  | .equalEqual | .bangEqual => some .comparison
  | .greater | .greaterEqual | .less | .lessEqual => some .term
  | .plus | .minus => some .factor
  | .star | .slash => some .unary
  | .comma => some .assignment
  | _ => none

def opening? (t : Token) : Option Opening :=
  match t.kind with
  | .falseWord => some (.constant (.truth false))
  | .trueWord => some (.constant (.truth true))
  | .nilWord => some (.constant .nil)
  | .number | .string => some (.constant t.literal)
  | .identifier => some (.name t)
  | .leftParen => some .group
  | kind => (operandRule? kind).map (.operator t)

def isUnaryOperator : Kind → Bool
  | .bang | .minus => true
  | _ => false

/-- Continues a tree with operators and their right operands while there are
any; each takes a token, so the tokens at hand bound the number of rounds. -/
def extend (operand : Parser Expr) (isOperator : Kind → Bool)
    (build : Expr → Token → Expr → Expr) : List Token → Expr → Parser Expr
  | [], left => return left
  | _ :: bound, left => do
    match ← accept? isOperator with
    | none => return left
    | some operator =>
      let right ← operand
      extend operand isOperator build bound (build left operator right)

def leftChain (operand : Parser Expr) (isOperator : Kind → Bool)
    (build : Expr → Token → Expr → Expr) : Parser Expr := do
  let first ← operand
  extend operand isOperator build (← get).rest first

def rule (limit : Nat) : Nat → Rule → Parser Expr
  | 0, _ => throw .tooDeep
  | depth + 1, .expression => nested limit (rule limit depth .comma)
  | depth + 1, .comma => leftChain (rule limit depth .assignment) (· == .comma) .comma
  | depth + 1, .assignment => do
    let target ← rule limit depth .ternary
    match ← accept? (· == .equal) with
    | none => return target
    | some equals =>
      let value ← rule limit depth .assignment
      match target with
      | .reference name => return .assign name value
      | _ =>
        report equals .invalidTarget
        return target
  | depth + 1, .ternary => do
    let condition ← rule limit depth .equality
    match ← accept? (· == .question) with
    | none => return condition
    | some _ =>
      let onTrue ← rule limit depth .expression
      let _ ← expect .colon .colonAfterExpression
      let onFalse ← rule limit depth .ternary
      return .conditional condition onTrue onFalse
  | depth + 1, .equality => leftChain (rule limit depth .comparison) Kind.isEquality .binary
  | depth + 1, .comparison => leftChain (rule limit depth .term) Kind.isComparison .binary
  | depth + 1, .term => leftChain (rule limit depth .factor) Kind.isTerm .binary
  | depth + 1, .factor => leftChain (rule limit depth .unary) Kind.isFactor .binary
  | depth + 1, .unary => do
    match ← takeAt? depth (ifKind isUnaryOperator) with
    | some operator => return .unary operator (← rule limit depth .unary)
    | none => rule limit depth .primary
  | depth + 1, .primary => do
    match ← takeAt? depth opening? with
    | none => fail .expectedExpression
    | some (.constant value) => return .literal value
    | some (.name token) => return .reference token
    | some .group =>
      let inner ← rule limit depth .expression
      let _ ← expect .rightParen .parenthesisAfterExpression
      return .grouping inner
    | some (.operator token operand) =>
      report token .missingLeftOperand
      rule limit depth operand

end Scriptlet.Parse
