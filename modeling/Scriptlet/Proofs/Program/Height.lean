import Scriptlet.Program.Source
import Mathlib.Order.Lattice

/-! The height of a tree, which is the levels of depth that a walk of it takes. A tree is
printed just where the depth admits its height, and then as its source form. -/
namespace Scriptlet

def Expr.height : Expr → Nat
  | .literal _ | .reference _ => 1
  | .grouping inner => inner.height + 1
  | .unary _ right | .assign _ right => right.height + 1
  | .binary left _ right | .comma left _ right => max left.height right.height + 1
  | .conditional condition onTrue onFalse =>
    max condition.height (max onTrue.height onFalse.height) + 1

mutual

/-- A block is a level of its own, other statements are as high as their expression. -/
def Stmt.height : Stmt → Nat
  | .expression value | .print value => value.height
  | .declare _ none => 0
  | .declare _ (some initializer) => initializer.height
  | .block body => Stmt.bodyHeight body + 1

def Stmt.bodyHeight : List Stmt → Nat
  | [] => 0
  | statement :: more => max statement.height (Stmt.bodyHeight more)

end

namespace Depth
variable (depth : Depth)

@[simp] theorem admits_zero : depth.admits 0 = true := by cases depth <;> simp [admits]

theorem admits_succ (height : Nat) :
    depth.admits (height + 1) = depth.deeper?.any (·.admits height) := by
  cases depth with
  | bounded levels => cases levels <;> simp [admits, deeper?]
  | unbounded => rfl

theorem admits_max (a b : Nat) : depth.admits (max a b) = (depth.admits a && depth.admits b) := by
  cases depth with
  | bounded levels => simp [admits]
  | unbounded => rfl

end Depth

theorem Expr.source?_eq (e : Expr) (depth : Depth) :
    e.source? depth = if depth.admits e.height then some e.source else none := by
  induction e generalizing depth with
  | literal | reference =>
    unfold source? height
    rw [Depth.admits_succ]
    cases depth.deeper? <;> simp [source]
  | grouping inner ih | unary operator inner ih | assign name inner ih =>
    unfold source? height
    rw [Depth.admits_succ]
    cases depth.deeper? with
    | none => rfl
    | some depth => cases fits : depth.admits inner.height <;> simp [ih, source, fits]
  | binary left operator right leftIH rightIH | comma left operator right leftIH rightIH =>
    unfold source? height
    rw [Depth.admits_succ]
    cases depth.deeper? with
    | none => rfl
    | some depth =>
      cases left_fits : depth.admits left.height <;>
        cases right_fits : depth.admits right.height <;>
        simp [leftIH, rightIH, source, Depth.admits_max, left_fits, right_fits]
  | conditional condition onTrue onFalse ih trueIH falseIH =>
    unfold source? height
    rw [Depth.admits_succ]
    cases depth.deeper? with
    | none => rfl
    | some depth =>
      cases fits : depth.admits condition.height <;>
        cases true_fits : depth.admits onTrue.height <;>
        cases false_fits : depth.admits onFalse.height <;>
        simp [ih, trueIH, falseIH, source, Depth.admits_max, fits, true_fits, false_fits]

mutual

theorem Stmt.source?_eq : (statement : Stmt) → (depth : Depth) →
    statement.source? depth = if depth.admits statement.height then some statement.source else none
  | .expression value, depth | .print value, depth | .declare _ (some value), depth => by
    cases fits : depth.admits value.height <;> simp [source?, source, height, value.source?_eq, fits]
  | .declare _ none, depth => by simp [source?, source, height]
  | .block body, depth => by
    unfold Stmt.source? Stmt.height
    rw [Depth.admits_succ]
    cases depth.deeper? with
    | none => rfl
    | some depth =>
      have inside := Stmt.bodySource?_eq body depth
      cases fits : depth.admits (Stmt.bodyHeight body) <;> simp [inside, source, fits]

theorem Stmt.bodySource?_eq : (body : List Stmt) → (depth : Depth) →
    Stmt.bodySource? depth body =
      if depth.admits (Stmt.bodyHeight body) then some (Stmt.bodySource body) else none
  | [], depth => by simp [bodySource?, bodySource, bodyHeight]
  | statement :: more, depth => by
    have first := Stmt.source?_eq statement depth
    have rest := Stmt.bodySource?_eq more depth
    cases fits : depth.admits statement.height <;>
      cases more_fits : depth.admits (Stmt.bodyHeight more) <;>
      simp [bodySource?, bodySource, bodyHeight, first, rest, Depth.admits_max, fits, more_fits]

end

private theorem Stmt.mapM_source?_eq (program : List Stmt) (depth : Depth) :
    program.mapM (Stmt.source? depth) =
      if depth.admits (Stmt.bodyHeight program) then some (program.map Stmt.source) else none := by
  induction program with
  | nil => simp [bodyHeight]
  | cons statement more ih =>
    cases fits : depth.admits statement.height <;>
      cases more_fits : depth.admits (Stmt.bodyHeight more) <;>
      simp [List.mapM_cons, ih, Stmt.source?_eq, bodyHeight, Depth.admits_max, fits, more_fits]

theorem Stmt.programSource?_eq (program : List Stmt) (depth : Depth) :
    Stmt.programSource? depth program =
      if depth.admits (Stmt.bodyHeight program) then some (Stmt.programSource program) else none := by
  unfold programSource?
  rw [Stmt.mapM_source?_eq]
  split <;> rfl

section Tokens
variable (f : Token → Token)

theorem Expr.height_mapTokens (e : Expr) : (e.mapTokens f).height = e.height := by
  induction e with
  | literal | reference => rfl
  | grouping inner ih | unary operator inner ih | assign name inner ih =>
    simp only [mapTokens, height, ih]
  | binary left operator right leftIH rightIH | comma left operator right leftIH rightIH =>
    simp only [mapTokens, height, leftIH, rightIH]
  | conditional condition onTrue onFalse ih trueIH falseIH =>
    simp only [mapTokens, height, ih, trueIH, falseIH]

mutual

theorem Stmt.height_mapTokens : (statement : Stmt) → (statement.mapTokens f).height = statement.height
  | .expression value | .print value | .declare _ (some value) => by
    simp only [mapTokens, height, value.height_mapTokens]
  | .declare _ none => rfl
  | .block body => by simp only [mapTokens, height, Stmt.bodyHeight_mapBody body]

theorem Stmt.bodyHeight_mapBody : (body : List Stmt) →
    Stmt.bodyHeight (Stmt.mapBody f body) = Stmt.bodyHeight body
  | [] => rfl
  | statement :: more => by
    simp only [mapBody, bodyHeight, Stmt.height_mapTokens statement, Stmt.bodyHeight_mapBody more]

end

end Tokens

end Scriptlet
