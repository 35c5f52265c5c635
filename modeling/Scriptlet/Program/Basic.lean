import Scriptlet.Token.Basic

/-! Programs as trees. A tree keeps the tokens that an error may point at: operators and
names. Parentheses of the source are grouping nodes, so the shape of a tree already says how
its operators bind. How deep a walk of a tree may go is bounded by the levels of depth that
it has to spend. -/
namespace Scriptlet

inductive Expr
  | literal (value : Value)
  | grouping (inner : Expr)
  | unary (operator : Token) (right : Expr)
  | binary (left : Expr) (operator : Token) (right : Expr)
  | comma (left : Expr) (operator : Token) (right : Expr)
  | conditional (condition onTrue onFalse : Expr)
  | reference (name : Token)
  | assign (name : Token) (value : Expr)
  deriving DecidableEq, Inhabited

inductive Stmt
  | expression (value : Expr)
  | print (value : Expr)
  | declare (name : Token) (initializer : Option Expr)
  | block (body : List Stmt)
  deriving Inhabited

mutual

private def Stmt.decideEq : (a b : Stmt) → Decidable (a = b)
  | .expression a, .expression b | .print a, .print b =>
    if same : a = b then .isTrue (same ▸ rfl) else .isFalse fun equal => same (by cases equal; rfl)
  | .declare a i, .declare b j =>
    if same : a = b ∧ i = j then .isTrue (same.1 ▸ same.2 ▸ rfl)
    else .isFalse fun equal => same (by cases equal; exact ⟨rfl, rfl⟩)
  | .block a, .block b =>
    match Stmt.decideBodyEq a b with
    | .isTrue same => .isTrue (same ▸ rfl)
    | .isFalse differ => .isFalse fun equal => differ (by cases equal; rfl)
  | .expression _, .print _ | .expression _, .declare _ _ | .expression _, .block _
  | .print _, .expression _ | .print _, .declare _ _ | .print _, .block _
  | .declare _ _, .expression _ | .declare _ _, .print _ | .declare _ _, .block _
  | .block _, .expression _ | .block _, .print _ | .block _, .declare _ _ => .isFalse nofun

private def Stmt.decideBodyEq : (a b : List Stmt) → Decidable (a = b)
  | [], [] => .isTrue rfl
  | [], _ :: _ | _ :: _, [] => .isFalse nofun
  | a :: as, b :: bs =>
    match Stmt.decideEq a b, Stmt.decideBodyEq as bs with
    | .isTrue first, .isTrue more => .isTrue (first ▸ more ▸ rfl)
    | .isFalse differ, _ => .isFalse fun equal => differ (List.cons.inj equal).1
    | _, .isFalse differ => .isFalse fun equal => differ (List.cons.inj equal).2

end

instance : DecidableEq Stmt := Stmt.decideEq

def Expr.mapTokens (f : Token → Token) : Expr → Expr
  | .literal value => .literal value
  | .grouping inner => .grouping (inner.mapTokens f)
  | .unary operator right => .unary (f operator) (right.mapTokens f)
  | .binary left operator right => .binary (left.mapTokens f) (f operator) (right.mapTokens f)
  | .comma left operator right => .comma (left.mapTokens f) (f operator) (right.mapTokens f)
  | .conditional condition onTrue onFalse =>
    .conditional (condition.mapTokens f) (onTrue.mapTokens f) (onFalse.mapTokens f)
  | .reference name => .reference (f name)
  | .assign name value => .assign (f name) (value.mapTokens f)

mutual

def Stmt.mapTokens (f : Token → Token) : Stmt → Stmt
  | .expression value => .expression (value.mapTokens f)
  | .print value => .print (value.mapTokens f)
  | .declare name none => .declare (f name) none
  | .declare name (some initializer) => .declare (f name) (some (initializer.mapTokens f))
  | .block body => .block (Stmt.mapBody f body)

def Stmt.mapBody (f : Token → Token) : List Stmt → List Stmt
  | [] => []
  | statement :: more => statement.mapTokens f :: Stmt.mapBody f more

end

theorem Stmt.mapBody_eq (f : Token → Token) (body : List Stmt) :
    Stmt.mapBody f body = body.map (Stmt.mapTokens f) := by
  induction body with
  | nil => rfl
  | cons statement more ih => rw [Stmt.mapBody, ih, List.map_cons]

theorem Stmt.mapTokens_declare (f : Token → Token) (name : Token) (initializer : Option Expr) :
    (Stmt.declare name initializer).mapTokens f =
      .declare (f name) (initializer.map (Expr.mapTokens f)) := by
  cases initializer <;> rfl

/-- Levels of depth that may still be used. -/
inductive Depth
  | bounded (levels : Nat)
  | unbounded
  deriving DecidableEq, Inhabited

def Depth.standard : Depth := bounded 1000

def Depth.deeper? : Depth → Option Depth
  | bounded 0 => none
  | bounded (levels + 1) => some (bounded levels)
  | unbounded => some unbounded

def Depth.admits : Depth → Nat → Bool
  | bounded levels, height => height ≤ levels
  | unbounded, _ => true

end Scriptlet
