import Scriptlet.Diagnostic
import Scriptlet.Program.Basic

/-! The state of a parse and its elementary steps. Tokens behind the first one
of kind eof play no part, so the state holds the tokens before it and that one
apart. The next token is never of kind error: such tokens are reported and
passed as soon as they come next. A fault is reported where it is found and
abandons the rule at hand; what has been consumed by then stays consumed. Passing
a token of kind error takes recursion of its own, so where no level of it is left
the parser stops on the first one behind the token it consumes. -/
namespace Scriptlet.Parse

structure State where
  rest : List Token
  /-- The token of kind eof. -/
  finish : Token
  /-- Reports so far, the latest first. -/
  reports : List Diagnostic
  /-- Open blocks and expressions. -/
  nesting : Nat
  /-- Open blocks. -/
  blocks : Nat
  deriving Inhabited

/-- Why a rule is abandoned: for a fault on record, because the levels of recursion do not
suffice for it, or because they do not suffice for the tokens of kind error behind the next
token. -/
inductive Abort
  | reported
  | tooDeep
  | overrun
  deriving DecidableEq, Inhabited

abbrev Parser := EStateM Abort State

namespace State

def isLexicalError (t : Token) : Bool := t.kind == .error

/-- Reports and passes the tokens of kind error that come next. -/
def settled (s : State) : State :=
  { s with
    rest := s.rest.dropWhile isLexicalError
    reports := ((s.rest.takeWhile isLexicalError).map Diagnostic.lexical).reverse ++ s.reports }

def start (tokens : List Token) : State :=
  settled
    { rest := tokens.takeWhile (·.kind != .eof)
      finish := (tokens.find? (·.kind == .eof)).getD (Token.eof 1)
      reports := []
      nesting := 0
      blocks := 0 }

def next (s : State) : Token := s.rest.headD s.finish

def atEnd (s : State) : Bool := s.rest.isEmpty

def advanced (s : State) : State := settled { s with rest := s.rest.tail }

/-- The token of kind error right behind the next token. -/
def errorBehind? (s : State) : Option Token := s.rest.tail.head?.filter isLexicalError

/-- The state in which the parser stands on the token of kind error behind the next one. -/
def stopped (s : State) : State :=
  match s.errorBehind? with
  | none => s
  | some _ => { s with rest := s.rest.tail }

def report (s : State) (t : Token) (fault : Fault) : State :=
  { s with reports := Diagnostic.atToken t fault :: s.reports }

def sees (s : State) (kind : Kind) : Bool :=
  match s.rest with
  | [] => false
  | t :: _ => t.kind == kind

def atBlockEnd (s : State) : Bool := s.blocks != 0 && s.sees .rightBrace

theorem length_advanced {s : State} {t : Token} {more : List Token} (upcoming : s.rest = t :: more) :
    s.advanced.rest.length < s.rest.length := by
  have shorter : (more.dropWhile isLexicalError).length ≤ more.length :=
    (List.dropWhile_sublist _).length_le
  simp only [advanced, settled, upcoming, List.tail_cons, List.length_cons]
  omega

/-- Passes tokens until the last one passed ends a statement or the next one
opens a statement or closes an open block. -/
def seek (s : State) (last : Token) : State :=
  match _upcoming : s.rest with
  | [] => s
  | t :: _ =>
    if last.kind = .semicolon ∨ t.kind.startsStatement ∨ s.atBlockEnd then s
    else seek s.advanced t
termination_by s.rest.length
decreasing_by exact length_advanced _upcoming

/-- Moves to where parsing goes on after a fault. The token at fault is passed
unless it closes an open block. -/
def synchronized (s : State) : State :=
  match s.rest with
  | [] => s
  | t :: _ => if s.atBlockEnd then s else s.advanced.seek t

end State

/-- Consumes the next token if the test accepts it. -/
def take? {α : Type} (test : Token → Option α) : Parser (Option α) := fun s =>
  match s.rest with
  | [] => .ok none s
  | t :: _ =>
    match test t with
    | none => .ok none s
    | some found => .ok (some found) s.advanced

/-- Consumes the next token if the test accepts it, with the given levels of recursion left. -/
def takeAt? {α : Type} (levels : Nat) (test : Token → Option α) : Parser (Option α) := do
  let s ← get
  if levels = 0 ∧ s.errorBehind?.isSome ∧ (s.rest.head?.bind test).isSome then throw .overrun
  else take? test

def ifKind (test : Kind → Bool) (t : Token) : Option Token := if test t.kind then some t else none

theorem ifKind_eq_some {test : Kind → Bool} {t u : Token} :
    ifKind test t = some u ↔ test t.kind = true ∧ t = u := by
  unfold ifKind
  split <;> simp_all

theorem ifKind_eq_none {test : Kind → Bool} {t : Token} :
    ifKind test t = none ↔ test t.kind = false := by
  unfold ifKind
  split <;> simp_all

def accept? (test : Kind → Bool) : Parser (Option Token) := take? (ifKind test)

def report (t : Token) (fault : Fault) : Parser Unit := fun s => .ok () (s.report t fault)

/-- Reports a fault at the next token and abandons the rule. -/
def fail {α : Type} (fault : Fault) : Parser α := fun s =>
  .error .reported (s.report s.next fault)

def expect (kind : Kind) (fault : Fault) : Parser Token := do
  match ← accept? (· == kind) with
  | some t => return t
  | none => fail fault

/-- Runs a parser between two changes of the state, the second one also where
the parser is abandoned. -/
def bracket {α : Type} (enter leave : State → State) (body : Parser α) : Parser α := fun s =>
  match body (enter s) with
  | .ok a s => .ok a (leave s)
  | .error abort s => .error abort (leave s)

def nested {α : Type} (limit : Nat) (body : Parser α) : Parser α :=
  bracket (fun s => { s with nesting := s.nesting + 1 })
    (fun s => { s with nesting := s.nesting - 1 })
    fun s => if limit < s.nesting then fail .tooMuchNesting s else body s

def inBlock {α : Type} (body : Parser α) : Parser α :=
  bracket (fun s => { s with blocks := s.blocks + 1 })
    (fun s => { s with blocks := s.blocks - 1 }) body

end Scriptlet.Parse
