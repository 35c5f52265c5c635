import Scriptlet.Proofs.Parse.Anchored
import Scriptlet.Run.Execute

/-! What a program that stands on its tokens can fail with. No operator in it is
without a meaning, and an error of the running program points at the token that
is to blame: a name that has no value, a division whose divisor is zero, or an
operator whose operands do not suit it. Only an overflow points at none. -/
namespace Scriptlet
open Token

/-- The error points at one of the tokens, which is of a kind that can be to blame. -/
def RuntimeError.Anchored (tokens : List Token) : RuntimeError → Prop
  | undefinedVariable name => Among tokens (· == .identifier) name
  | operandNotNumber operator => Among tokens (· == .minus) operator
  | operandsNotNumbers operator =>
    Among tokens (fun kind => kind.isComparison || kind.isFactor || kind == .minus) operator
  | operandsNotAddable operator => Among tokens (· == .plus) operator
  | divisionByZero operator => Among tokens (· == .slash) operator
  | stackOverflow => True

def Failure.Anchored (tokens : List Token) : Failure → Prop
  | raised error => error.Anchored tokens
  | unknownOperator _ => False

/-- A failure that an operator can be to blame for: no overflow, and no name without a value. -/
def Failure.OfOperator : Failure → Prop
  | raised (.undefinedVariable _) | raised .stackOverflow => False
  | _ => True

def finalState {σ α : Type} : EStateM.Result Failure σ α → σ
  | .ok _ s => s
  | .error _ s => s

/-- This run fails with nothing but the failures it may be blamed for. -/
def Fails {σ α : Type} (blamed : Failure → Prop) (p : EStateM Failure σ α) : Prop :=
  ∀ s failure s', p s = .error failure s' → blamed failure

namespace Fails
variable {σ α β : Type} {blamed : Failure → Prop}

theorem pure (a : α) : Fails blamed (Pure.pure a : EStateM Failure σ α) := by
  intro s failure s' ran
  cases ran

theorem throw {failure : Failure} (here : blamed failure) :
    Fails blamed (MonadExcept.throw failure : EStateM Failure σ α) := by
  intro s other s' ran
  cases ran
  exact here

theorem bind {p : EStateM Failure σ α} {f : α → EStateM Failure σ β} (first : Fails blamed p)
    (more : ∀ a, Fails blamed (f a)) : Fails blamed (p >>= f) := by
  intro s failure s' ran
  change EStateM.bind p f s = _ at ran
  unfold EStateM.bind at ran
  cases began : p s with
  | ok a middle =>
    rw [began] at ran
    exact more a middle failure s' ran
  | error other middle =>
    rw [began] at ran
    cases ran
    exact first s failure s' began

end Fails

variable {tokens : List Token}

namespace Operator

private theorem anchored_unary {operator : Token} {right : Value} {failure : Failure}
    (among : Among tokens Parse.isUnaryOperator operator)
    (failed : unary operator right = .error failure) : failure.Anchored tokens := by
  have sort := among.sort
  unfold unary at failed
  split at failed
  · cases failed
  · rename_i minus
    split at failed
    · cases failed
    · cases failed
      exact ⟨by rw [minus]; rfl, among.member⟩
  · rename_i no_bang no_minus
    unfold Parse.isUnaryOperator at sort
    split at sort <;> contradiction

private theorem anchored_sum {operator : Token} {left right : Value} {failure : Failure}
    (member : operator ∈ tokens) (plus : operator.kind = .plus)
    (failed : sum operator left right = .error failure) : failure.Anchored tokens := by
  unfold sum at failed
  split at failed
  · cases failed
  · cases failed
  · cases failed
  · cases failed
    exact ⟨by rw [plus]; rfl, member⟩

theorem quotient_ok {operator : Token} {a b : Number} {value : Value}
    (divided : quotient operator a b = .ok value) :
    b.isZero = false ∧ value = .number (a.div b) := by
  unfold quotient at divided
  split at divided
  · cases divided
  · rename_i nonzero
    cases divided
    exact ⟨Bool.not_eq_true _ ▸ nonzero, rfl⟩

private theorem anchored_numeric {operator : Token} {a b : Number} {failure : Failure}
    (member : operator ∈ tokens)
    (sort : operator.kind.isComparison || operator.kind.isFactor || operator.kind == .minus)
    (failed : numeric operator a b = .error failure) : failure.Anchored tokens := by
  unfold numeric at failed
  split at failed
  any_goals cases failed
  · rename_i slash
    unfold quotient at failed
    split at failed
    · cases failed
      exact ⟨by rw [slash]; rfl, member⟩
    · cases failed
  · revert sort
    cases shape : operator.kind <;> simp_all [Kind.isComparison, Kind.isFactor]

private theorem anchored_binary {operator : Token} {left right : Value} {failure : Failure}
    (among : Among tokens Kind.isBinaryOperator operator)
    (failed : binary operator left right = .error failure) : failure.Anchored tokens := by
  have sort := among.sort
  unfold binary at failed
  split at failed
  · cases failed
  · cases failed
  · rename_i plus
    exact anchored_sum among.member plus failed
  · rename_i no_difference no_equality no_sum
    have numbers :
        operator.kind.isComparison || operator.kind.isFactor || operator.kind == .minus := by
      revert sort
      cases shape : operator.kind <;>
        simp_all [Kind.isBinaryOperator, Kind.isEquality, Kind.isComparison, Kind.isTerm,
          Kind.isFactor]
    split at failed
    · exact anchored_numeric among.member numbers failed
    · cases failed
      exact ⟨numbers, among.member⟩

section Failures
variable {operator : Token} {failure : Failure}

theorem ofOperator_unary {right : Value} (failed : unary operator right = .error failure) :
    failure.OfOperator := by
  unfold unary at failed
  split at failed
  · cases failed
  · split at failed <;> cases failed
    trivial
  · cases failed
    trivial

private theorem ofOperator_numeric {a b : Number} (failed : numeric operator a b = .error failure) :
    failure.OfOperator := by
  unfold numeric quotient at failed
  split at failed
  any_goals cases failed
  · split at failed <;> cases failed
    trivial
  · trivial

private theorem ofOperator_sum {left right : Value} (failed : sum operator left right = .error failure) :
    failure.OfOperator := by
  unfold sum at failed
  split at failed <;> cases failed
  trivial

theorem ofOperator_binary {left right : Value}
    (failed : binary operator left right = .error failure) : failure.OfOperator := by
  unfold binary at failed
  split at failed
  · cases failed
  · cases failed
  · exact ofOperator_sum failed
  · split at failed
    · exact ofOperator_numeric failed
    · cases failed
      trivial

end Failures

end Operator

section Expressions
variable {blamed : Failure → Prop}

theorem fails_settle {α : Type} {result : Except Failure α}
    (each : ∀ failure, result = .error failure → blamed failure) :
    Fails blamed (Evaluation.settle result) := by
  intro scope failure scope' ran
  unfold Evaluation.settle at ran
  split at ran
  · cases ran
  · cases ran
    exact each failure rfl

theorem fails_lookup {name : Token} (named : blamed (.raised (.undefinedVariable name))) :
    Fails blamed (Evaluation.lookup name) := by
  intro scope failure scope' ran
  unfold Evaluation.lookup at ran
  split at ran
  · cases ran
  · cases ran
    exact named

theorem fails_store {name : Token} (named : blamed (.raised (.undefinedVariable name)))
    (value : Value) : Fails blamed (Evaluation.store name value) := by
  intro scope failure scope' ran
  unfold Evaluation.store at ran
  split at ran
  · cases ran
  · cases ran
    exact named

private theorem fails_deeper {α : Type} {depth : Depth} {p : Depth → Evaluation α}
    (each : ∀ depth, Fails (Failure.Anchored tokens) (p depth)) :
    Fails (Failure.Anchored tokens) (Evaluation.deeper depth p) := by
  unfold Evaluation.deeper
  split
  · exact each _
  · exact .throw (show RuntimeError.stackOverflow.Anchored tokens from trivial)

/-- One case a constructor: what an operator or a name fails with points at it. -/
private theorem fails_evaluate {e : Expr} (anchored : e.Anchored tokens) (depth : Depth) :
    Fails (Failure.Anchored tokens) (e.evaluate depth) := by
  induction e generalizing depth with
  | literal value => exact fails_deeper fun _ => .pure value
  | grouping inner ih => exact fails_deeper fun depth => ih anchored depth
  | unary operator right ih =>
    obtain ⟨among, inside⟩ := anchored
    exact fails_deeper fun depth => (ih inside depth).bind fun b =>
      fails_settle fun _ => Operator.anchored_unary among
  | binary left operator right leftIH rightIH =>
    obtain ⟨first, among, second⟩ := anchored
    exact fails_deeper fun depth => (leftIH first depth).bind fun a =>
      (rightIH second depth).bind fun b => fails_settle fun _ => Operator.anchored_binary among
  | comma left operator right leftIH rightIH =>
    obtain ⟨first, -, second⟩ := anchored
    exact fails_deeper fun depth => (leftIH first depth).bind fun _ => rightIH second depth
  | conditional condition onTrue onFalse ih trueIH falseIH =>
    obtain ⟨decides, whenTrue, whenFalse⟩ := anchored
    refine fails_deeper fun depth => (ih decides depth).bind fun c => ?_
    split
    · exact trueIH whenTrue depth
    · exact falseIH whenFalse depth
  | reference name => exact fails_deeper fun _ => fails_lookup anchored
  | assign name value ih =>
    obtain ⟨named, inside⟩ := anchored
    exact fails_deeper fun depth => (ih inside depth).bind fun v =>
      (fails_store named v).bind fun _ => .pure v

end Expressions

section Statements
variable {blamed : Failure → Prop}

theorem fails_evaluated {α : Type} {p : Evaluation α} (inside : Fails blamed p) :
    Fails blamed (Execution.evaluated p) := by
  intro m failure m' ran
  unfold Execution.evaluated at ran
  split at ran
  · cases ran
  · rename_i failed
    cases ran
    exact inside _ _ _ failed

theorem fails_emit (value : Value) : Fails blamed (Execution.emit value) := by
  intro m failure m' ran
  cases ran

theorem fails_define (name : Token) (value : Value) :
    Fails blamed (Execution.define name value) := by
  intro m failure m' ran
  cases ran

theorem fails_inBlock {α : Type} {p : Execution α} (inside : Fails blamed p) :
    Fails blamed (Execution.inBlock p) := by
  intro m failure m' ran
  unfold Execution.inBlock at ran
  split at ran
  · cases ran
  · rename_i failed
    cases ran
    exact inside _ _ _ failed

private theorem fails_executeAll {program : List Stmt} {depth : Depth}
    (each : ∀ statement ∈ program, Fails blamed (statement.execute depth)) :
    Fails blamed (Stmt.executeAll depth program) := by
  induction program with
  | nil => exact .pure ()
  | cons statement more ih =>
    exact (each statement List.mem_cons_self).bind fun _ =>
      ih fun later member => each later (List.mem_cons_of_mem statement member)

private theorem fails_execute {statement : Stmt} (anchored : statement.Anchored tokens) (depth : Depth) :
    Fails (Failure.Anchored tokens) (statement.execute depth) := by
  induction anchored generalizing depth with
  | expression inside =>
    exact (fails_evaluated (fails_evaluate inside depth)).bind fun _ => .pure ()
  | print inside => exact (fails_evaluated (fails_evaluate inside depth)).bind fun v => fails_emit v
  | @declare name initializer named inside =>
    cases initializer with
    | none => exact fails_define name .nil
    | some initializer =>
      exact (fails_evaluated (fails_evaluate (inside initializer rfl) depth)).bind fun v =>
        fails_define name v
  | block inside ih =>
    unfold Stmt.execute Execution.deeper
    split
    · exact fails_inBlock (fails_executeAll fun statement member => ih statement member _)
    · exact .throw (show RuntimeError.stackOverflow.Anchored tokens from trivial)

theorem anchored_interpret {program : List Stmt} (depth : Depth) (globals : Frame)
    (anchored : ∀ statement ∈ program, statement.Anchored tokens) :
    ∀ failure ∈ (interpret depth program globals).failure, failure.Anchored tokens := by
  intro failure found
  unfold interpret at found
  split at found
  · cases found
  · rename_i ran
    cases found
    exact fails_executeAll (fun statement member => fails_execute (anchored statement member) depth)
      _ _ _ ran

end Statements

end Scriptlet
