import Scriptlet.Parse.Expression

/-! The grammar of statements and the results of a parse. A declaration never
fails: after a fault it moves on to a place where a statement may start and
makes none. A block takes declarations up to the brace that closes it. -/
namespace Scriptlet.Parse

/-- How far a parse may nest, and how many levels of recursion it may use. -/
structure Limits where
  nesting : Nat
  depth : Nat
  deriving DecidableEq, Inhabited

def Limits.standard : Limits := ⟨40, 1000⟩

inductive Leader
  | declaration | output | block
  deriving DecidableEq

def leader? (t : Token) : Option Leader :=
  match t.kind with
  | .varWord => some .declaration
  | .printWord => some .output
  | .leftBrace => some .block
  | _ => none

/-- Makes no statement where a parser is abandoned, and moves on. -/
def recovered (body : Parser Stmt) (s : State) : Option Stmt × State :=
  match body s with
  | .ok statement s => (some statement, s)
  | .error .reported s => (none, s.synchronized)
  | .error .tooDeep s => (none, (s.report s.next .tooDeep).synchronized)
  | .error .overrun s => (none, (s.stopped.report s.stopped.next .tooDeep).synchronized)

/-- Declarations up to a place where the test holds; each takes a token, so the
tokens at hand bound the number of rounds. -/
def declarations (declaration : State → Option Stmt × State) (ends : State → Bool) :
    List Token → State → List Stmt × State
  | [], s => ([], s)
  | _ :: bound, s =>
    if ends s then ([], s)
    else
      let (first, s) := declaration s
      let (more, s) := declarations declaration ends bound s
      (first.toList ++ more, s)

/-- Declarations up to a brace that closes a block, or the end. -/
def body (declaration : State → Option Stmt × State) : Parser (List Stmt) := fun s =>
  let (statements, s) := declarations declaration (fun s => s.atEnd || s.sees .rightBrace) s.rest s
  .ok statements s

def initializer (limits : Limits) (depth : Nat) : Parser (Option Expr) := do
  match ← accept? (· == .equal) with
  | none => return none
  | some _ => return some (← rule limits.nesting depth .expression)

def statement (limits : Limits) : Nat → Parser Stmt
  | 0 => throw .tooDeep
  | depth + 1 => do
    match ← take? leader? with
    | some .declaration =>
      let name ← expect .identifier .expectedName
      let value ← initializer limits depth
      let _ ← expect .semicolon .semicolonAfterDeclaration
      return .declare name value
    | some .output =>
      let value ← rule limits.nesting depth .expression
      let _ ← expect .semicolon .semicolonAfterValue
      return .print value
    | some .block =>
      let statements ← nested limits.nesting (inBlock (body (recovered (statement limits depth))))
      let _ ← expect .rightBrace .braceAfterBlock
      return .block statements
    | none =>
      let value ← rule limits.nesting depth .expression
      let _ ← expect .semicolon .semicolonAfterExpression
      return .expression value

def declaration (limits : Limits) (s : State) : Option Stmt × State :=
  recovered (statement limits limits.depth) s

def statements (limits : Limits) (s : State) : List Stmt × State :=
  declarations (declaration limits) State.atEnd s.rest s

structure Parsed (α : Type) where
  tree : α
  diagnostics : List Diagnostic
  deriving DecidableEq, Inhabited

def Parsed.isValid {α : Type} (p : Parsed α) : Bool := p.diagnostics.isEmpty

def program (limits : Limits) (tokens : List Token) : Parsed (List Stmt) :=
  let (found, s) := statements limits (State.start tokens)
  ⟨found, s.reports.reverse⟩

/-- An expression up to the end of the tokens. -/
def soleExpression (limits : Limits) : Parser Expr := do
  let value ← rule limits.nesting limits.depth .expression
  if (← get).atEnd then return value else fail .expectedEnd

/-- The one expression that a token list consists of, if there is no fault at all. -/
def bareExpression (limits : Limits) (tokens : List Token) : Parsed (Option Expr) :=
  match soleExpression limits (State.start tokens) with
  | .ok value s => ⟨if s.reports.isEmpty then some value else none, s.reports.reverse⟩
  | .error _ s => ⟨none, s.reports.reverse⟩

/-- Whether a token list can be parsed: its last token is of kind eof. -/
def isComplete (tokens : List Token) : Bool :=
  match tokens.getLast? with
  | some t => t.kind == .eof
  | none => false

end Scriptlet.Parse
