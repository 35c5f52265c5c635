import Scriptlet.Proofs.Parse.Progress

/-! Trees that stand on their tokens. Whatever the faults of a text, each operator
in a tree that the parser makes of it has a kind that its place admits, each name
is an identifier, and all of them are tokens of the text. -/
namespace Scriptlet

/-- Kinds that the evaluation of two operands knows. -/
def Kind.isBinaryOperator (kind : Kind) : Bool :=
  kind.isEquality || kind.isComparison || kind.isTerm || kind.isFactor

structure Token.Among (tokens : List Token) (test : Kind → Bool) (t : Token) : Prop where
  sort : test t.kind = true
  member : t ∈ tokens

open Token

/-- Operators and names of the tree are among the tokens and of kinds that suit. -/
def Expr.Anchored (tokens : List Token) : Expr → Prop
  | .literal _ => True
  | .grouping inner => inner.Anchored tokens
  | .unary operator right =>
    Among tokens Parse.isUnaryOperator operator ∧ right.Anchored tokens
  | .binary left operator right =>
    left.Anchored tokens ∧ Among tokens Kind.isBinaryOperator operator ∧ right.Anchored tokens
  | .comma left operator right =>
    left.Anchored tokens ∧ Among tokens (· == .comma) operator ∧ right.Anchored tokens
  | .conditional condition onTrue onFalse =>
    condition.Anchored tokens ∧ onTrue.Anchored tokens ∧ onFalse.Anchored tokens
  | .reference name => Among tokens (· == .identifier) name
  | .assign name value => Among tokens (· == .identifier) name ∧ value.Anchored tokens

inductive Stmt.Anchored (tokens : List Token) : Stmt → Prop
  | expression {value} (inside : value.Anchored tokens) : Anchored tokens (.expression value)
  | print {value} (inside : value.Anchored tokens) : Anchored tokens (.print value)
  | declare {name initializer} (named : Among tokens (· == .identifier) name)
      (inside : ∀ e ∈ initializer, Expr.Anchored tokens e) :
      Anchored tokens (.declare name initializer)
  | block {body} (inside : ∀ statement ∈ body, Anchored tokens statement) :
      Anchored tokens (.block body)

namespace Parse
open State Grammar

/-- From a state that is left with some of the tokens, this parser returns nothing
without the property, and leaves some of the tokens. -/
def Yields {α : Type} (tokens : List Token) (good : α → Prop) (p : Parser α) : Prop :=
  ∀ s a s', s.rest ⊆ tokens → p s = .ok a s' → good a ∧ s'.rest ⊆ tokens

namespace Yields
variable {α β : Type} {tokens : List Token} {good : α → Prop} {well : β → Prop}

theorem pure {a : α} (here : good a) : Yields tokens good (Pure.pure a) := by
  intro s b s' within ran
  cases ran
  exact ⟨here, within⟩

theorem bind {p : Parser α} {f : α → Parser β} (first : Yields tokens good p)
    (more : ∀ a, good a → Yields tokens well (f a)) : Yields tokens well (p >>= f) := by
  intro s b s' within ran
  obtain ⟨a, middle, began, ended⟩ := ok_of_bind ran
  obtain ⟨here, still⟩ := first s a middle within began
  exact more a here middle b s' still ended

theorem thrown (abort : Abort) : Yields tokens good (throw abort) := by
  intro s a s' within ran
  cases ran

theorem fail (fault : Fault) : Yields tokens good (Parse.fail fault) := by
  intro s a s' within ran
  cases ran

theorem report (t : Token) (fault : Fault) :
    Yields tokens (fun _ : Unit => True) (Parse.report t fault) := by
  intro s a s' within ran
  cases ran
  exact ⟨trivial, within⟩

theorem get : Yields tokens (fun _ : State => True) MonadState.get := by
  intro s a s' within ran
  cases ran
  exact ⟨trivial, within⟩

theorem take? (test : Token → Option α) :
    Yields tokens (fun found => ∀ a, found = some a → ∃ t ∈ tokens, test t = some a)
      (Parse.take? test) := by
  intro s found s' within ran
  unfold Parse.take? at ran
  split at ran
  · cases ran
    exact ⟨nofun, within⟩
  · rename_i t more upcoming
    split at ran
    · cases ran
      exact ⟨nofun, within⟩
    · rename_i a passes
      cases ran
      refine ⟨fun b same => ?_, fun u later => within ((follows_advanced s).rest.subset later)⟩
      cases same
      exact ⟨t, within (by rw [upcoming]; exact List.mem_cons_self), passes⟩

theorem takeAt? (levels : Nat) (test : Token → Option α) :
    Yields tokens (fun found => ∀ a, found = some a → ∃ t ∈ tokens, test t = some a)
      (Parse.takeAt? levels test) :=
  fun s found s' within ran => take? test s found s' within (take?_of_takeAt? ran)

theorem among_of_ifKind {test : Kind → Bool} {found : Option Token}
    (taken : ∀ t, found = some t → ∃ u ∈ tokens, ifKind test u = some t) :
    ∀ t, found = some t → Among tokens test t := by
  intro t same
  obtain ⟨u, member, passes⟩ := taken t same
  obtain ⟨sort, rfl⟩ := ifKind_eq_some.1 passes
  exact ⟨sort, member⟩

theorem accept? (test : Kind → Bool) :
    Yields tokens (fun found => ∀ t, found = some t → Among tokens test t)
      (Parse.accept? test) := by
  intro s found s' within ran
  obtain ⟨taken, still⟩ := take? _ s found s' within ran
  exact ⟨among_of_ifKind taken, still⟩

theorem expect (kind : Kind) (fault : Fault) :
    Yields tokens (Among tokens (· == kind)) (Parse.expect kind fault) := by
  refine (accept? _).bind fun found taken => ?_
  cases found with
  | none => exact fail fault
  | some t => exact pure (taken t rfl)

theorem nested {limit : Nat} {body : Parser α} (inside : Yields tokens good body) :
    Yields tokens good (Parse.nested limit body) := by
  intro s a s' within ran
  obtain ⟨-, left, began, rfl⟩ := ok_of_nested ran
  exact inside s.deeper a left within began

theorem inBlock {body : Parser α} (inside : Yields tokens good body) :
    Yields tokens good (Parse.inBlock body) := by
  intro s a s' within ran
  obtain ⟨left, began, rfl⟩ := ok_of_inBlock ran
  exact inside s.inner a left within began

section Chain
variable {operand : Parser Expr} {isOperator : Kind → Bool} {build : Expr → Token → Expr → Expr}
  (right : Yields tokens (Expr.Anchored tokens) operand)
  (builds : ∀ {left operator value}, Expr.Anchored tokens left → Among tokens isOperator operator →
    Expr.Anchored tokens value → (build left operator value).Anchored tokens)
include right builds

theorem extend (bound : List Token) {left : Expr} (anchored : left.Anchored tokens) :
    Yields tokens (Expr.Anchored tokens) (Parse.extend operand isOperator build bound left) := by
  induction bound generalizing left with
  | nil => exact pure anchored
  | cons _ bound ih =>
    refine (accept? _).bind fun found taken => ?_
    cases found with
    | none => exact pure anchored
    | some operator =>
      exact right.bind fun value inside => ih (builds anchored (taken operator rfl) inside)

theorem leftChain :
    Yields tokens (Expr.Anchored tokens) (Parse.leftChain operand isOperator build) :=
  right.bind fun _ anchored => get.bind fun s _ => extend right builds s.rest anchored

end Chain

end Yields

section Rules
variable {tokens : List Token}

private theorem yields_binary {operand : Parser Expr} {isOperator : Kind → Bool}
    (right : Yields tokens (Expr.Anchored tokens) operand)
    (known : ∀ kind, isOperator kind = true → kind.isBinaryOperator = true) :
    Yields tokens (Expr.Anchored tokens) (leftChain operand isOperator .binary) :=
  .leftChain right fun first operator second =>
    ⟨first, ⟨known _ operator.sort, operator.member⟩, second⟩

theorem yields_rule (tokens : List Token) (limit depth : Nat) (r : Rule) :
    Yields tokens (Expr.Anchored tokens) (rule limit depth r) := by
  induction depth generalizing r with
  | zero => exact .thrown _
  | succ depth ih =>
    cases r with
    | expression => exact .nested (ih .comma)
    | comma =>
      exact .leftChain (ih .assignment) fun left operator right => ⟨left, operator, right⟩
    | equality =>
      exact yields_binary (ih .comparison) fun _ sort => by simp [Kind.isBinaryOperator, sort]
    | comparison =>
      exact yields_binary (ih .term) fun _ sort => by simp [Kind.isBinaryOperator, sort]
    | term =>
      exact yields_binary (ih .factor) fun _ sort => by simp [Kind.isBinaryOperator, sort]
    | factor =>
      exact yields_binary (ih .unary) fun _ sort => by simp [Kind.isBinaryOperator, sort]
    | assignment =>
      refine (ih .ternary).bind fun target anchored => (Yields.accept? _).bind fun found _ => ?_
      cases found with
      | none => exact .pure anchored
      | some equals =>
        refine (ih .assignment).bind fun value inside => ?_
        split
        · exact .pure ⟨anchored, inside⟩
        · exact (Yields.report _ _).bind fun _ _ => .pure anchored
    | ternary =>
      refine (ih .equality).bind fun condition anchored =>
        (Yields.accept? _).bind fun found _ => ?_
      cases found with
      | none => exact .pure anchored
      | some question =>
        exact (ih .expression).bind fun onTrue first => (Yields.expect _ _).bind fun _ _ =>
          (ih .ternary).bind fun onFalse second => .pure ⟨anchored, first, second⟩
    | unary =>
      refine (Yields.takeAt? _ _).bind fun found taken => ?_
      cases found with
      | none => exact ih .primary
      | some operator =>
        have sign := Yields.among_of_ifKind taken operator rfl
        exact (ih .unary).bind fun right inside => .pure ⟨sign, inside⟩
    | primary =>
      refine (Yields.takeAt? _ _).bind fun found taken => ?_
      cases found with
      | none => exact .fail _
      | some opening =>
        cases opening with
        | constant value => exact .pure trivial
        | name name =>
          obtain ⟨t, member, opened⟩ := taken _ rfl
          obtain ⟨rfl, sort⟩ := name_of_opening? opened
          exact .pure ⟨by simp [sort], member⟩
        | group =>
          exact (ih .expression).bind fun inner inside => (Yields.expect _ _).bind fun _ _ =>
            .pure inside
        | operator token operand => exact (Yields.report _ _).bind fun _ _ => ih operand

private theorem yields_ended {fault : Fault} {made : Stmt} (anchored : made.Anchored tokens) :
    Yields tokens (Stmt.Anchored tokens) (expect .semicolon fault >>= fun _ => Pure.pure made) :=
  (Yields.expect _ _).bind fun _ _ => .pure anchored

private theorem yields_initializer (tokens : List Token) (limits : Limits) (depth : Nat) :
    Yields tokens (fun found => ∀ e ∈ found, Expr.Anchored tokens e)
      (initializer limits depth) := by
  refine (Yields.accept? _).bind fun found _ => ?_
  cases found with
  | none => exact .pure nofun
  | some equals =>
    refine (yields_rule tokens _ _ _).bind fun value inside => .pure fun e same => ?_
    cases same
    exact inside

def MakesAnchored (tokens : List Token) (declaration : State → Option Stmt × State) : Prop :=
  ∀ s, s.rest ⊆ tokens →
    (∀ made ∈ (declaration s).1, made.Anchored tokens) ∧ (declaration s).2.rest ⊆ tokens

private theorem makesAnchored_recovered {body : Parser Stmt}
    (inside : Yields tokens (Stmt.Anchored tokens) body) (keeps : Keeps Follows body) :
    MakesAnchored tokens (recovered body) := by
  intro s within
  have follows := law_follows.recovered keeps s
  refine ⟨fun made found => ?_, fun t later => within (follows.rest.subset later)⟩
  unfold recovered at found
  split at found
  · rename_i ran
    cases found
    exact (inside s made _ within ran).1
  all_goals cases found

private theorem anchored_declarations {declaration : State → Option Stmt × State}
    (makes : MakesAnchored tokens declaration) (ends : State → Bool) (bound : List Token)
    {s : State} (within : s.rest ⊆ tokens) :
    ∀ made ∈ (declarations declaration ends bound s).1, made.Anchored tokens := by
  induction bound generalizing s with
  | nil =>
    intro made member
    cases member
  | cons _ bound ih =>
    obtain ⟨first, still⟩ := makes s within
    intro made member
    unfold declarations at member
    split at member
    · cases member
    · rcases List.mem_append.1 member with here | later
      · exact first made (Option.mem_toList.1 here)
      · exact ih still made later

private theorem yields_statement (tokens : List Token) (limits : Limits) (depth : Nat) :
    Yields tokens (Stmt.Anchored tokens) (statement limits depth) := by
  induction depth with
  | zero => exact .thrown _
  | succ depth ih =>
    refine (Yields.take? _).bind fun found _ => ?_
    cases found with
    | none =>
      exact (yields_rule tokens _ _ _).bind fun value inside => yields_ended (.expression inside)
    | some leader =>
      cases leader with
      | declaration =>
        exact (Yields.expect _ _).bind fun name named =>
          (yields_initializer tokens limits depth).bind fun value inside =>
            yields_ended (.declare named inside)
      | output =>
        exact (yields_rule tokens _ _ _).bind fun value inside => yields_ended (.print inside)
      | block =>
        have body : Yields tokens (fun found => ∀ made ∈ found, Stmt.Anchored tokens made)
            (Parse.body (recovered (statement limits depth))) := by
          intro s found s' within ran
          have follows := law_follows.declarations (follows_recovered limits depth) endsBody
            s.rest s
          have made := anchored_declarations
            (makesAnchored_recovered ih (keeps_statement limits depth)) endsBody s.rest within
          rw [body_eq] at ran
          cases ran
          exact ⟨made, fun t later => within (follows.rest.subset later)⟩
        exact (Yields.nested (.inBlock body)).bind fun found made =>
          (Yields.expect _ _).bind fun _ _ => .pure (.block made)

end Rules

private theorem start_subset (tokens : List Token) : (State.start tokens).rest ⊆ tokens := by
  intro t member
  exact (List.takeWhile_prefix _).subset ((List.dropWhile_suffix _).subset member)

theorem anchored_program (limits : Limits) (tokens : List Token) :
    ∀ made ∈ (program limits tokens).tree, made.Anchored tokens :=
  anchored_declarations
    (makesAnchored_recovered (yields_statement tokens limits limits.depth)
      (keeps_statement limits limits.depth))
    State.atEnd _ (start_subset tokens)

theorem anchored_bareExpression (limits : Limits) (tokens : List Token) :
    ∀ e ∈ (bareExpression limits tokens).tree, Expr.Anchored tokens e := by
  have whole : Yields tokens (Expr.Anchored tokens) (soleExpression limits) := by
    refine (yields_rule tokens _ _ _).bind fun value inside => Yields.get.bind fun s _ => ?_
    split
    · exact .pure inside
    · exact .fail _
  intro e found
  unfold bareExpression at found
  split at found
  · rename_i value s' ran
    split at found
    · cases found
      exact (whole _ e s' (start_subset tokens) ran).1
    · cases found
  · cases found

end Parse

end Scriptlet
