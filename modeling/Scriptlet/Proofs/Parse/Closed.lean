import Scriptlet.Proofs.Parse.Steps

/-! Properties of parsers by the way the parsers are built: what the elementary
steps have, and what sequences, nesting and blocks keep, every rule has, at any
limit and any depth. -/
namespace Scriptlet.Parse

/-- A property of parsers that is kept by every way of building one, apart from reports
at tokens that have been taken. -/
structure Built (P : ∀ {α : Type}, Parser α → Prop) : Prop where
  pure : ∀ {α : Type} (a : α), P (Pure.pure a : Parser α)
  bind : ∀ {α β : Type} {p : Parser α} {f : α → Parser β}, P p → (∀ a, P (f a)) → P (p >>= f)
  get : P (MonadState.get : Parser State)
  tooDeep : ∀ {α : Type}, P (throw .tooDeep : Parser α)
  take? : ∀ {α : Type} (test : Token → Option α), P (Parse.take? test)
  takeAt? : ∀ {α : Type} (levels : Nat) (test : Token → Option α), P (Parse.takeAt? levels test)
  fail : ∀ {α : Type} (fault : Fault), P (Parse.fail fault : Parser α)
  nested : ∀ {α : Type} {limit : Nat} {body : Parser α}, P body → P (Parse.nested limit body)
  block : ∀ {statement : Parser Stmt}, P statement →
    P (Parse.inBlock (Parse.body (Parse.recovered statement)))

/-- A property of parsers that is kept by every way of building one. -/
structure Closed (P : ∀ {α : Type}, Parser α → Prop) : Prop extends Built fun p => P p where
  report : ∀ {t : Token}, t.kind ≠ .error → ∀ fault : Fault, P (Parse.report t fault)

def Gives {α : Type} (p : Parser α) (a : α) : Prop := ∃ s s', p s = .ok a s'

theorem gives_take? {α : Type} {test : Token → Option α} {a : α}
    (gives : Gives (take? test) (some a)) : ∃ t, test t = some a := by
  obtain ⟨s, s', ran⟩ := gives
  unfold take? at ran
  split at ran
  · cases ran
  · split at ran
    · cases ran
    · rename_i passes
      cases ran
      exact ⟨_, passes⟩

theorem gives_takeAt? {α : Type} {levels : Nat} {test : Token → Option α} {a : α}
    (gives : Gives (takeAt? levels test) (some a)) : ∃ t, test t = some a := by
  obtain ⟨s, s', ran⟩ := gives
  exact gives_take? ⟨s, s', take?_of_takeAt? ran⟩

theorem gives_accept? {test : Kind → Bool} {t : Token} (gives : Gives (accept? test) (some t)) :
    test t.kind = true := by
  obtain ⟨u, passes⟩ := gives_take? gives
  obtain ⟨sort, rfl⟩ := ifKind_eq_some.1 passes
  exact sort

theorem usable_of_opening? {t operator : Token} {operand : Rule}
    (opens : opening? t = some (.operator operator operand)) : operator.kind ≠ .error := by
  unfold opening? at opens
  split at opens <;> first | cases opens | skip
  obtain ⟨rule, known, same⟩ := Option.map_eq_some_iff.1 opens
  cases same
  intro sort
  rw [sort] at known
  cases known

namespace Built
variable {P : ∀ {α : Type}, Parser α → Prop} (built : Built fun p => P p)
include built

theorem bindGiven {α β : Type} {p : Parser α} {f : α → Parser β} (first : P p)
    (more : ∀ a, Gives p a → P (f a)) : P (p >>= f) := by
  classical
  -- another result never comes up, so giving up there changes nothing
  have same : p >>= f = p >>= fun a => if Gives p a then f a else throw .tooDeep := by
    funext s
    cases ran : p s with
    | error abort s' => rw [bind_of_error ran, bind_of_error ran]
    | ok a s' => rw [bind_of_ok ran, bind_of_ok ran, if_pos ⟨s, s', ran⟩]
  rw [same]
  refine built.bind first fun a => ?_
  split
  · rename_i given
    exact more a given
  · exact built.tooDeep

theorem accept? (test : Kind → Bool) : P (Parse.accept? test) := built.take? _

theorem expect (kind : Kind) (fault : Fault) : P (Parse.expect kind fault) := by
  refine built.bind (built.accept? _) fun found => ?_
  cases found with
  | none => exact built.fail fault
  | some t => exact built.pure t

theorem extend {operand : Parser Expr} (right : P operand) (isOperator : Kind → Bool)
    (build : Expr → Token → Expr → Expr) (bound : List Token) (left : Expr) :
    P (Parse.extend operand isOperator build bound left) := by
  induction bound generalizing left with
  | nil => exact built.pure left
  | cons _ bound ih =>
    refine built.bind (built.accept? _) fun found => ?_
    cases found with
    | none => exact built.pure left
    | some operator => exact built.bind right fun value => ih _

theorem leftChain {operand : Parser Expr} (right : P operand) (isOperator : Kind → Bool)
    (build : Expr → Token → Expr → Expr) : P (Parse.leftChain operand isOperator build) :=
  built.bind right fun first => built.bind built.get fun s =>
    built.extend right _ _ s.rest first

theorem rule {limit : Nat}
    (assignment : ∀ depth, (∀ r, P (Parse.rule limit depth r)) →
      P (Parse.rule limit (depth + 1) .assignment))
    (primary : ∀ depth, (∀ r, P (Parse.rule limit depth r)) →
      P (Parse.rule limit (depth + 1) .primary))
    (depth : Nat) (r : Rule) : P (Parse.rule limit depth r) := by
  induction depth generalizing r with
  | zero => exact built.tooDeep
  | succ depth ih =>
    cases r with
    | expression => exact built.nested (ih _)
    | comma | equality | comparison | term | factor => exact built.leftChain (ih _) _ _
    | assignment => exact assignment depth ih
    | ternary =>
      refine built.bind (ih _) fun condition => built.bind (built.accept? _) fun found => ?_
      cases found with
      | none => exact built.pure condition
      | some question =>
        exact built.bind (ih _) fun onTrue => built.bind (built.expect _ _) fun _ =>
          built.bind (ih _) fun onFalse => built.pure _
    | unary =>
      refine built.bind (built.takeAt? _ _) fun found => ?_
      cases found with
      | none => exact ih _
      | some operator => exact built.bind (ih _) fun right => built.pure _
    | primary => exact primary depth ih

theorem ended (fault : Fault) (made : Stmt) :
    P (Parse.expect .semicolon fault >>= fun _ => Pure.pure made) :=
  built.bind (built.expect _ _) fun _ => built.pure _

theorem statement {limits : Limits} (rules : ∀ depth r, P (Parse.rule limits.nesting depth r))
    (depth : Nat) : P (Parse.statement limits depth) := by
  induction depth with
  | zero => exact built.tooDeep
  | succ depth ih =>
    refine built.bind (built.take? _) fun found => ?_
    cases found with
    | none => exact built.bind (rules _ _) fun value => built.ended _ _
    | some leader =>
      cases leader with
      | declaration =>
        refine built.bind (built.expect _ _) fun name => built.bind ?_ fun value =>
          built.ended _ _
        refine built.bind (built.accept? _) fun found => ?_
        cases found with
        | none => exact built.pure none
        | some equals => exact built.bind (rules _ _) fun value => built.pure _
      | output => exact built.bind (rules _ _) fun value => built.ended _ _
      | block =>
        exact built.bind (built.nested (built.block ih)) fun made =>
          built.bind (built.expect _ _) fun _ => built.pure _

end Built

namespace Closed
variable {P : ∀ {α : Type}, Parser α → Prop} (closed : Closed P)
include closed

theorem rule (limit depth : Nat) (r : Rule) : P (Parse.rule limit depth r) := by
  refine closed.toBuilt.rule (fun depth ih => ?_) (fun depth ih => ?_) depth r
  · refine closed.bind (ih _) fun target =>
      closed.bindGiven (closed.accept? _) fun found given => ?_
    cases found with
    | none => exact closed.pure target
    | some equals =>
      have sort : equals.kind = .equal := beq_iff_eq.1 (gives_accept? given :)
      refine closed.bind (ih _) fun value => ?_
      split
      · exact closed.pure _
      · exact closed.bind (closed.report (by rw [sort]; decide) _) fun _ => closed.pure _
  · refine closed.bindGiven (closed.takeAt? _ _) fun found given => ?_
    cases found with
    | none => exact closed.fail _
    | some opening =>
      obtain ⟨t, opens⟩ := gives_takeAt? given
      cases opening with
      | constant value => exact closed.pure _
      | name token => exact closed.pure _
      | group =>
        exact closed.bind (ih _) fun inner => closed.bind (closed.expect _ _) fun _ =>
          closed.pure _
      | operator token operand =>
        exact closed.bind (closed.report (usable_of_opening? opens) _) fun _ => ih _

theorem statement (limits : Limits) (depth : Nat) : P (Parse.statement limits depth) :=
  closed.toBuilt.statement (closed.rule limits.nesting) depth

end Closed

end Scriptlet.Parse
