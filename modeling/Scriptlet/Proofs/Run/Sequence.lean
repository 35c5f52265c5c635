import Scriptlet.Program.Basic
import Scriptlet.Proofs.Scope.Refinement

/-! Programs one after the other. Running two programs as one is running the
second where the first has ended without a failure, and nothing but the first
where it fails; so a program that fails does not run what is behind the statement
that failed. What a program does depends on the kinds and the texts of its
tokens only; other tokens in their places show in the failure alone. -/
namespace Scriptlet

def RuntimeError.mapTokens (f : Token → Token) : RuntimeError → RuntimeError
  | undefinedVariable t => undefinedVariable (f t)
  | operandNotNumber t => operandNotNumber (f t)
  | operandsNotNumbers t => operandsNotNumbers (f t)
  | operandsNotAddable t => operandsNotAddable (f t)
  | divisionByZero t => divisionByZero (f t)
  | stackOverflow => stackOverflow

def Failure.mapTokens (f : Token → Token) : Failure → Failure
  | raised error => raised (error.mapTokens f)
  | unknownOperator t => unknownOperator (f t)

/-- A replacement of tokens that a running program does not see. -/
structure Unnoticed (f : Token → Token) : Prop where
  kind : ∀ t, (f t).kind = t.kind
  lexeme : ∀ t, (f t).lexeme = t.lexeme

section Replacement
variable {f : Token → Token}

namespace Operator

private theorem unary_map (unnoticed : Unnoticed f) (operator : Token) (right : Value) :
    unary (f operator) right = (unary operator right).mapError (Failure.mapTokens f) := by
  unfold unary
  rw [unnoticed.kind]
  split
  · rfl
  · split <;> rfl
  · rfl

private theorem numeric_map (unnoticed : Unnoticed f) (operator : Token) (a b : Number) :
    numeric (f operator) a b = (numeric operator a b).mapError (Failure.mapTokens f) := by
  unfold numeric quotient
  rw [unnoticed.kind]
  split <;> first | rfl | (split <;> rfl)

private theorem sum_map (operator : Token) (left right : Value) :
    sum (f operator) left right = (sum operator left right).mapError (Failure.mapTokens f) := by
  unfold sum
  split <;> rfl

private theorem binary_map (unnoticed : Unnoticed f) (operator : Token) (left right : Value) :
    binary (f operator) left right =
      (binary operator left right).mapError (Failure.mapTokens f) := by
  unfold binary
  rw [unnoticed.kind]
  split
  · rfl
  · rfl
  · exact sum_map operator left right
  · split
    · exact numeric_map unnoticed operator _ _
    · rfl

end Operator

def Never (_ : Failure) : Prop := False

abbrev SameValue {α : Type} (f : Token → Token) (p q : Evaluation α) : Prop :=
  Simulates Never (Failure.mapTokens f) Eq p q

private theorem sameValue_settle {α : Type} (result : Except Failure α) :
    SameValue f (Evaluation.settle result)
      (Evaluation.settle (result.mapError (Failure.mapTokens f))) := by
  rintro scope _ rfl
  cases result with
  | error failure => exact .error rfl
  | ok a => exact .ok rfl

private theorem sameValue_lookup (unnoticed : Unnoticed f) (name : Token) :
    SameValue f (Evaluation.lookup name) (Evaluation.lookup (f name)) := by
  rintro scope _ rfl
  unfold Evaluation.lookup
  rw [unnoticed.lexeme]
  cases scope.get? name.lexeme with
  | none => exact .error rfl
  | some value => exact .ok rfl

private theorem sameValue_store (unnoticed : Unnoticed f) (name : Token) (value : Value) :
    SameValue f (Evaluation.store name value) (Evaluation.store (f name) value) := by
  rintro scope _ rfl
  unfold Evaluation.store
  rw [unnoticed.lexeme]
  cases scope.assign? name.lexeme value with
  | none => exact .error rfl
  | some scope => exact .ok rfl

private theorem sameValue_deeper {α : Type} {depth : Depth} {p q : Depth → Evaluation α}
    (each : ∀ depth, SameValue f (p depth) (q depth)) :
    SameValue f (Evaluation.deeper depth p) (Evaluation.deeper depth q) := by
  unfold Evaluation.deeper
  cases depth.deeper? with
  | none => exact .throw (.raised .stackOverflow)
  | some depth => exact each depth

private theorem sameValue_evaluate (unnoticed : Unnoticed f) (e : Expr) (depth : Depth) :
    SameValue f (e.evaluate depth) ((e.mapTokens f).evaluate depth) := by
  induction e generalizing depth with
  | literal value => exact sameValue_deeper fun _ => .pure value
  | grouping inner ih => exact sameValue_deeper fun depth => ih depth
  | unary operator right ih =>
    refine sameValue_deeper fun depth => (ih depth).bind fun b => ?_
    rw [Operator.unary_map unnoticed]
    exact sameValue_settle _
  | binary left operator right leftIH rightIH =>
    refine sameValue_deeper fun depth => (leftIH depth).bind fun a =>
      (rightIH depth).bind fun b => ?_
    rw [Operator.binary_map unnoticed]
    exact sameValue_settle _
  | comma left operator right leftIH rightIH =>
    exact sameValue_deeper fun depth => (leftIH depth).bind fun _ => rightIH depth
  | conditional condition onTrue onFalse ih trueIH falseIH =>
    refine sameValue_deeper fun depth => (ih depth).bind fun c => ?_
    split
    · exact trueIH depth
    · exact falseIH depth
  | reference name => exact sameValue_deeper fun _ => sameValue_lookup unnoticed name
  | assign name value ih =>
    exact sameValue_deeper fun depth => (ih depth).bind fun v =>
      (sameValue_store unnoticed name v).bind fun _ => .pure v

/-- The machines differ only in a text that the second one has printed before. -/
structure Behind (text : String) (m n : Machine) : Prop where
  scope : n.scope = m.scope
  output : n.output = text ++ m.output

abbrev SameCourse {α : Type} (f : Token → Token) (text : String) (p q : Execution α) : Prop :=
  Simulates Never (Failure.mapTokens f) (Behind text) p q

variable {text : String}

private theorem sameCourse_evaluated {α : Type} {p q : Evaluation α} (each : SameValue f p q) :
    SameCourse f text (Execution.evaluated p) (Execution.evaluated q) := by
  intro m n behind
  unfold Execution.evaluated
  have ends := each m.scope n.scope behind.scope.symm
  generalize p m.scope = left at ends
  generalize q n.scope = right at ends
  cases ends with
  | ok same => exact .ok ⟨same.symm, behind.output⟩
  | error same => exact .error ⟨same.symm, behind.output⟩
  | excused excuse => exact excuse.elim

private theorem sameCourse_emit (value : Value) :
    SameCourse f text (Execution.emit value) (Execution.emit value) := by
  intro m n behind
  refine .ok ⟨behind.scope, ?_⟩
  rw [behind.output]
  simp only [String.append_assoc]

private theorem sameCourse_define (unnoticed : Unnoticed f) (name : Token) (value : Value) :
    SameCourse f text (Execution.define name value) (Execution.define (f name) value) := by
  intro m n behind
  refine .ok ⟨?_, behind.output⟩
  rw [behind.scope, unnoticed.lexeme]

private theorem sameCourse_inBlock {α : Type} {p q : Execution α} (inside : SameCourse f text p q) :
    SameCourse f text (Execution.inBlock p) (Execution.inBlock q) := by
  intro m n behind
  unfold Execution.inBlock
  have ends := inside { m with scope := m.scope.opened } { n with scope := n.scope.opened }
    ⟨congrArg Scope.opened behind.scope, behind.output⟩
  generalize p _ = left at ends
  generalize q _ = right at ends
  cases ends with
  | ok behind => exact .ok ⟨congrArg Scope.closed behind.scope, behind.output⟩
  | error behind => exact .error ⟨congrArg Scope.closed behind.scope, behind.output⟩
  | excused excuse => exact excuse.elim

mutual

private theorem sameCourse_execute (unnoticed : Unnoticed f) (text : String) (depth : Depth) :
    (statement : Stmt) →
      SameCourse f text (statement.execute depth) ((statement.mapTokens f).execute depth)
  | .expression value =>
    (sameCourse_evaluated (sameValue_evaluate unnoticed value depth)).bind fun _ => .pure ()
  | .print value =>
    (sameCourse_evaluated (sameValue_evaluate unnoticed value depth)).bind fun v =>
      sameCourse_emit v
  | .declare name none => sameCourse_define unnoticed name .nil
  | .declare name (some initializer) =>
    (sameCourse_evaluated (sameValue_evaluate unnoticed initializer depth)).bind fun v =>
      sameCourse_define unnoticed name v
  | .block body => by
    unfold Stmt.mapTokens Stmt.execute Execution.deeper
    cases depth.deeper? with
    | none => exact .throw (.raised .stackOverflow)
    | some depth => exact sameCourse_inBlock (sameCourse_executeAll unnoticed text depth body)

private theorem sameCourse_executeAll (unnoticed : Unnoticed f) (text : String) (depth : Depth) :
    (program : List Stmt) →
      SameCourse f text (Stmt.executeAll depth program)
        (Stmt.executeAll depth (Stmt.mapBody f program))
  | [] => .pure ()
  | statement :: more =>
    (sameCourse_execute unnoticed text depth statement).bind fun _ =>
      sameCourse_executeAll unnoticed text depth more

end

end Replacement

def Outcome.mapTokens (f : Token → Token) (outcome : Outcome) : Outcome :=
  { outcome with failure := outcome.failure.map (Failure.mapTokens f) }

def Outcome.behind (text : String) (outcome : Outcome) : Outcome :=
  { outcome with output := text ++ outcome.output }

def Outcome.ofResult : EStateM.Result Failure Machine Unit → Outcome
  | .ok _ m => ⟨m.scope.globals, m.output, none⟩
  | .error failure m => ⟨m.scope.globals, m.output, some failure⟩

theorem interpret_eq_ofResult (depth : Depth) (program : List Stmt) (globals : Frame) :
    interpret depth program globals =
      .ofResult (Stmt.executeAll depth program ⟨.global globals, ""⟩) := by
  unfold interpret Outcome.ofResult
  cases Stmt.executeAll depth program ⟨.global globals, ""⟩ with
  | ok _ m => rfl
  | error failure m => rfl

theorem ofResult_behind {f : Token → Token} (unnoticed : Unnoticed f) (depth : Depth)
    (program : List Stmt) (globals : Frame) (text : String) :
    Outcome.ofResult
        (Stmt.executeAll depth (program.map (Stmt.mapTokens f)) ⟨.global globals, text⟩) =
      ((interpret depth program globals).mapTokens f).behind text := by
  have ends := sameCourse_executeAll unnoticed text depth program ⟨.global globals, ""⟩
    ⟨.global globals, text⟩ ⟨rfl, by simp⟩
  rw [interpret_eq_ofResult]
  rw [Stmt.mapBody_eq] at ends
  generalize Stmt.executeAll depth program ⟨.global globals, ""⟩ = left at ends ⊢
  generalize Stmt.executeAll depth (program.map (Stmt.mapTokens f)) ⟨.global globals, text⟩ = right
    at ends ⊢
  cases ends with
  | ok behind =>
    simp only [Outcome.ofResult, Outcome.mapTokens, Outcome.behind, behind.scope, behind.output,
      Option.map_none]
  | error behind =>
    simp only [Outcome.ofResult, Outcome.mapTokens, Outcome.behind, behind.scope, behind.output,
      Option.map_some]
  | excused excuse => exact excuse.elim

theorem executeAll_cons (depth : Depth) (statement : Stmt) (more : List Stmt) (m : Machine) :
    Stmt.executeAll depth (statement :: more) m =
      match statement.execute depth m with
      | .ok _ m => Stmt.executeAll depth more m
      | .error failure m => .error failure m := by
  rw [Stmt.executeAll]
  change EStateM.bind (statement.execute depth) (fun _ => Stmt.executeAll depth more) m = _
  unfold EStateM.bind
  cases statement.execute depth m <;> rfl

private theorem executeAll_append (depth : Depth) (first second : List Stmt) (m : Machine) :
    Stmt.executeAll depth (first ++ second) m =
      match Stmt.executeAll depth first m with
      | .ok _ m => Stmt.executeAll depth second m
      | .error failure m => .error failure m := by
  induction first generalizing m with
  | nil => rfl
  | cons statement first ih =>
    rw [List.cons_append, executeAll_cons, executeAll_cons]
    cases statement.execute depth m with
    | ok _ m => exact ih m
    | error failure m => rfl

private theorem scope_of_executeAll {depth : Depth} {program : List Stmt} {globals : Frame} {m : Machine}
    (ran : Stmt.executeAll depth program ⟨.global globals, ""⟩ = .ok () m) :
    m.scope = .global m.scope.globals := by
  -- the flat semantics ends with as many logs as it began with, which is none
  have ends := Flat.simulates_executeAll 0 depth program ⟨.global globals, ""⟩
    ⟨⟨globals.bindings⟩, [], ""⟩ ⟨.global ⟨globals.bindings⟩, rfl, rfl⟩
  rw [ran] at ends
  generalize Flat.executeAll program ⟨⟨globals.bindings⟩, [], ""⟩ = flat at ends
  cases ends with
  | ok along =>
    rw [along.outermost]
    rfl

/-- Two programs as one: the second runs where the first has ended, with its
tokens replaced or not. -/
theorem interpret_append {f : Token → Token} (unnoticed : Unnoticed f) (depth : Depth)
    (first second : List Stmt) (globals : Frame) :
    interpret depth (first ++ second.map (Stmt.mapTokens f)) globals =
      if (interpret depth first globals).failure.isSome then interpret depth first globals
      else ((interpret depth second (interpret depth first globals).globals).mapTokens f).behind
        (interpret depth first globals).output := by
  rw [interpret_eq_ofResult, executeAll_append, interpret_eq_ofResult depth first]
  cases ran : Stmt.executeAll depth first ⟨.global globals, ""⟩ with
  | error failure m => rfl
  | ok _ m =>
    obtain ⟨scope, output⟩ := m
    have outermost := scope_of_executeAll ran
    dsimp only at outermost
    simp only [Outcome.ofResult, Option.isSome_none, Bool.false_eq_true, if_false]
    rw [outermost]
    exact ofResult_behind unnoticed depth second scope.globals output

theorem executeAll_error {depth : Depth} {program : List Stmt} {m ended : Machine}
    {failure : Failure} (failed : Stmt.executeAll depth program m = .error failure ended) :
    ∃ before culprit behind between, program = before ++ culprit :: behind ∧
      Stmt.executeAll depth before m = .ok () between ∧
      culprit.execute depth between = .error failure ended := by
  induction program generalizing m with
  | nil => cases failed
  | cons statement more ih =>
    rw [executeAll_cons] at failed
    cases ran : statement.execute depth m with
    | error earlier stopped =>
      rw [ran] at failed
      exact ⟨[], statement, more, m, rfl, rfl, ran.trans failed⟩
    | ok _ next =>
      rw [ran] at failed
      obtain ⟨before, culprit, behind, between, rfl, completed, failing⟩ := ih failed
      refine ⟨statement :: before, culprit, behind, between, rfl, ?_, failing⟩
      rw [executeAll_cons, ran]
      exact completed

/-- A program that fails does so in one of its statements, those before it having
completed, and does what it would do without those behind it. -/
theorem interpret_failed {depth : Depth} {program : List Stmt} {globals : Frame}
    {failure : Failure} (failed : (interpret depth program globals).failure = some failure) :
    ∃ before culprit behind, program = before ++ culprit :: behind ∧
      (interpret depth before globals).failure = none ∧
      interpret depth (before ++ [culprit]) globals = interpret depth program globals := by
  rw [interpret_eq_ofResult] at failed ⊢
  cases ran : Stmt.executeAll depth program ⟨.global globals, ""⟩ with
  | ok _ ended =>
    rw [ran] at failed
    cases failed
  | error earlier ended =>
    obtain ⟨before, culprit, behind, between, whole, completed, failing⟩ :=
      executeAll_error ran
    refine ⟨before, culprit, behind, whole, ?_, ?_⟩
    · rw [interpret_eq_ofResult, completed]
      rfl
    · rw [interpret_eq_ofResult, executeAll_append, completed]
      dsimp only
      rw [executeAll_cons, failing]

end Scriptlet
