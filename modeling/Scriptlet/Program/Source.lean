import Scriptlet.Program.Basic

/-! The texts of a tree. In its source form there is one statement a line, blocks are on one
line and binary operators have a blank on either side; no parentheses are added, those of
the grouping nodes are the only ones. Printing it goes down the tree, a level of depth for
each node and each block, and gives no text where the levels do not suffice. In the outline
of a tree an operator comes first, then its operands, in parentheses at every level. -/
namespace Scriptlet

def Expr.source : Expr → String
  | .literal value => value.spelled
  | .grouping inner => "(" ++ inner.source ++ ")"
  | .unary operator right => operator.lexeme ++ right.source
  | .binary left operator right => left.source ++ " " ++ operator.lexeme ++ " " ++ right.source
  | .comma left _ right => left.source ++ ", " ++ right.source
  | .conditional condition onTrue onFalse =>
    condition.source ++ " ? " ++ onTrue.source ++ " : " ++ onFalse.source
  | .reference name => name.lexeme
  | .assign name value => name.lexeme ++ " = " ++ value.source

mutual

def Stmt.source : Stmt → String
  | .expression value => value.source ++ ";"
  | .print value => "print " ++ value.source ++ ";"
  | .declare name none => "var " ++ name.lexeme ++ ";"
  | .declare name (some initializer) =>
    "var " ++ name.lexeme ++ " = " ++ initializer.source ++ ";"
  | .block body => "\x7b " ++ Stmt.bodySource body ++ "\x7d"

/-- The statements of a block, a blank after each; an empty block is one blank. -/
def Stmt.bodySource : List Stmt → String
  | [] => ""
  | statement :: more => statement.source ++ " " ++ Stmt.bodySource more

end

def Stmt.programSource (program : List Stmt) : String :=
  "\n".intercalate (program.map Stmt.source)

def Expr.source? (e : Expr) (depth : Depth) : Option String := do
  let depth ← depth.deeper?
  match e with
  | .literal value => return value.spelled
  | .grouping inner => return "(" ++ (← inner.source? depth) ++ ")"
  | .unary operator right => return operator.lexeme ++ (← right.source? depth)
  | .binary left operator right =>
    return (← left.source? depth) ++ " " ++ operator.lexeme ++ " " ++ (← right.source? depth)
  | .comma left _ right => return (← left.source? depth) ++ ", " ++ (← right.source? depth)
  | .conditional condition onTrue onFalse =>
    return (← condition.source? depth) ++ " ? " ++ (← onTrue.source? depth) ++ " : " ++
      (← onFalse.source? depth)
  | .reference name => return name.lexeme
  | .assign name value => return name.lexeme ++ " = " ++ (← value.source? depth)

mutual

def Stmt.source? (depth : Depth) : Stmt → Option String
  | .expression value => return (← value.source? depth) ++ ";"
  | .print value => return "print " ++ (← value.source? depth) ++ ";"
  | .declare name none => return "var " ++ name.lexeme ++ ";"
  | .declare name (some initializer) =>
    return "var " ++ name.lexeme ++ " = " ++ (← initializer.source? depth) ++ ";"
  | .block body => do
    let depth ← depth.deeper?
    return "\x7b " ++ (← Stmt.bodySource? depth body) ++ "\x7d"

def Stmt.bodySource? (depth : Depth) : List Stmt → Option String
  | [] => return ""
  | statement :: more =>
    return (← statement.source? depth) ++ " " ++ (← Stmt.bodySource? depth more)

end

def Stmt.programSource? (depth : Depth) (program : List Stmt) : Option String :=
  return "\n".intercalate (← program.mapM (Stmt.source? depth))

def Expr.outline : Expr → String
  | .literal value => value.shown
  | .grouping inner => "(group " ++ inner.outline ++ ")"
  | .unary operator right => "(" ++ operator.lexeme ++ " " ++ right.outline ++ ")"
  | .binary left operator right | .comma left operator right =>
    "(" ++ operator.lexeme ++ " " ++ left.outline ++ " " ++ right.outline ++ ")"
  | .conditional condition onTrue onFalse =>
    "(?: " ++ condition.outline ++ " " ++ onTrue.outline ++ " " ++ onFalse.outline ++ ")"
  | .reference name => name.lexeme
  | .assign name value => "(= " ++ name.lexeme ++ " " ++ value.outline ++ ")"

mutual

/-- The outlines of a statement's expressions, in order, blocks included. -/
def Stmt.outlines : Stmt → List String
  | .expression value | .print value => [value.outline]
  | .declare _ none => []
  | .declare _ (some initializer) => [initializer.outline]
  | .block body => Stmt.bodyOutlines body

def Stmt.bodyOutlines : List Stmt → List String
  | [] => []
  | statement :: more => statement.outlines ++ Stmt.bodyOutlines more

end

end Scriptlet
