import Scriptlet.Proofs.Parse.Renaming

/-! Runs of the parser on tokens and on their replacements, side by side. -/
namespace Scriptlet.Parse
open State

namespace Parallel
variable {f : Token → Token} {D : Diagnostic → Diagnostic → Prop} {α β γ δ : Type}

theorem pure {g : α → β} {a : α} {b : β} (same : b = g a) :
    Parallel f D g (Pure.pure a) (Pure.pure b) := by
  intro s s' mirrors
  rw [same]
  exact .ok mirrors

theorem tooDeep {g : α → β} : Parallel f D g (throw .tooDeep) (throw .tooDeep) :=
  fun _ _ mirrors => .error mirrors

theorem bind {g : α → β} {h : γ → δ} {p : Parser α} {q : Parser β} {k : α → Parser γ}
    {k' : β → Parser δ} (first : Parallel f D g p q) (more : ∀ a, Parallel f D h (k a) (k' (g a))) :
    Parallel f D h (p >>= k) (q >>= k') := by
  intro s s' mirrors
  change Alike f D h (EStateM.bind p k s) (EStateM.bind q k' s')
  unfold EStateM.bind
  have began := first s s' mirrors
  generalize p s = left at began
  generalize q s' = right at began
  cases began with
  | ok mirrors => exact more _ _ _ mirrors
  | error mirrors => exact .error mirrors

theorem report (unseen : Renaming f D) (t : Token) (fault : Fault) :
    Parallel f D id (Parse.report t fault) (Parse.report (f t) fault) :=
  fun _ _ mirrors => .ok (mirrors.report unseen t fault)

theorem fail (unseen : Renaming f D) {g : α → β} (fault : Fault) :
    Parallel f D g (Parse.fail fault) (Parse.fail fault) :=
  fun _ _ mirrors => .error (mirrors.reportNext unseen fault)

theorem take? (unseen : Renaming f D) {g : α → β} {test : Token → Option α}
    {test' : Token → Option β} (same : ∀ t, test' (f t) = (test t).map g) :
    Parallel f D (Option.map g) (Parse.take? test) (Parse.take? test') := by
  intro s s' mirrors
  unfold Parse.take?
  rw [mirrors.rest]
  cases s.rest with
  | nil => exact .ok mirrors
  | cons t more =>
    rw [List.map_cons]
    dsimp only
    rw [same]
    cases test t with
    | none => exact .ok mirrors
    | some a => exact .ok (mirrors.advanced unseen)

theorem takeAt? (unseen : Renaming f D) {g : α → β} {levels : Nat} {test : Token → Option α}
    {test' : Token → Option β} (same : ∀ t, test' (f t) = (test t).map g) :
    Parallel f D (Option.map g) (Parse.takeAt? levels test) (Parse.takeAt? levels test') := by
  intro s s' mirrors
  have passes : (s'.rest.head?.bind test').isSome = (s.rest.head?.bind test).isSome := by
    rw [mirrors.rest]
    cases s.rest with
    | nil => rfl
    | cons t more => simp [same]
  rw [takeAt?_eq, takeAt?_eq, mirrors.errorBehind? unseen, Option.isSome_map, passes]
  split
  · exact .error mirrors
  · exact take? unseen same s s' mirrors

theorem ifKind_map (unseen : Renaming f D) (test : Kind → Bool) (t : Token) :
    ifKind test (f t) = (ifKind test t).map f := by
  unfold ifKind
  rw [unseen.kind]
  split <;> rfl

theorem accept? (unseen : Renaming f D) (test : Kind → Bool) :
    Parallel f D (Option.map f) (Parse.accept? test) (Parse.accept? test) :=
  take? unseen (ifKind_map unseen test)

theorem expect (unseen : Renaming f D) (kind : Kind) (fault : Fault) :
    Parallel f D f (Parse.expect kind fault) (Parse.expect kind fault) := by
  refine bind (accept? unseen _) fun found => ?_
  cases found with
  | none => exact fail unseen fault
  | some t => exact pure rfl

theorem bracket {g : α → β} {enter leave : State → State} {p : Parser α} {q : Parser β}
    (inside : Parallel f D g p q)
    (enters : ∀ s s', Mirrors f D s s' → Mirrors f D (enter s) (enter s'))
    (leaves : ∀ s s', Mirrors f D s s' → Mirrors f D (leave s) (leave s')) :
    Parallel f D g (Parse.bracket enter leave p) (Parse.bracket enter leave q) := by
  intro s s' mirrors
  unfold Parse.bracket
  have ends := inside _ _ (enters s s' mirrors)
  generalize p (enter s) = left at ends
  generalize q (enter s') = right at ends
  cases ends with
  | ok mirrors => exact .ok (leaves _ _ mirrors)
  | error mirrors => exact .error (leaves _ _ mirrors)

theorem nested (unseen : Renaming f D) {g : α → β} {limit : Nat} {p : Parser α} {q : Parser β}
    (inside : Parallel f D g p q) :
    Parallel f D g (Parse.nested limit p) (Parse.nested limit q) := by
  refine bracket (fun s s' mirrors => ?_)
    (fun _ _ mirrors => { mirrors with nesting := congrArg (· + 1) mirrors.nesting })
    (fun _ _ mirrors => { mirrors with nesting := congrArg (· - 1) mirrors.nesting })
  rw [mirrors.nesting]
  split
  · exact fail unseen _ _ _ mirrors
  · exact inside _ _ mirrors

theorem inBlock {g : α → β} {p : Parser α} {q : Parser β} (inside : Parallel f D g p q) :
    Parallel f D g (Parse.inBlock p) (Parse.inBlock q) :=
  bracket inside (fun _ _ mirrors => { mirrors with blocks := congrArg (· + 1) mirrors.blocks })
    fun _ _ mirrors => { mirrors with blocks := congrArg (· - 1) mirrors.blocks }

section Expressions
variable {p q : Parser Expr} {build : Expr → Token → Expr → Expr}

theorem extend (unseen : Renaming f D) (right : Parallel f D (Expr.mapTokens f) p q)
    (isOperator : Kind → Bool)
    (builds : ∀ l t r, build (l.mapTokens f) (f t) (r.mapTokens f) = (build l t r).mapTokens f)
    (bound : List Token) (left : Expr) :
    Parallel f D (Expr.mapTokens f) (Parse.extend p isOperator build bound left)
      (Parse.extend q isOperator build (bound.map f) (left.mapTokens f)) := by
  induction bound generalizing left with
  | nil => exact pure rfl
  | cons t bound ih =>
    refine bind (accept? unseen _) fun found => ?_
    cases found with
    | none => exact pure rfl
    | some operator =>
      refine bind right fun value => ?_
      rw [builds]
      exact ih _

theorem leftChain (unseen : Renaming f D) (right : Parallel f D (Expr.mapTokens f) p q)
    (isOperator : Kind → Bool)
    (builds : ∀ l t r, build (l.mapTokens f) (f t) (r.mapTokens f) = (build l t r).mapTokens f) :
    Parallel f D (Expr.mapTokens f) (Parse.leftChain p isOperator build)
      (Parse.leftChain q isOperator build) := by
  refine bind right fun first => ?_
  intro s s' mirrors
  change Alike f D _ (Parse.extend p isOperator build s.rest first s)
    (Parse.extend q isOperator build s'.rest (first.mapTokens f) s')
  -- both loops have as many rounds as there are tokens left
  rw [mirrors.rest]
  exact extend unseen right isOperator builds s.rest first s s' mirrors

end Expressions

end Parallel

def Opening.mapTokens (f : Token → Token) : Opening → Opening
  | .constant value => .constant value
  | .name t => .name (f t)
  | .group => .group
  | .operator t operand => .operator (f t) operand

section Rules
variable {f : Token → Token} {D : Diagnostic → Diagnostic → Prop}

private theorem opening?_map (unseen : Renaming f D) (t : Token) :
    opening? (f t) = (opening? t).map (Opening.mapTokens f) := by
  unfold opening?
  rw [unseen.kind, unseen.literal]
  cases t.kind <;> rfl

private theorem leader?_map (unseen : Renaming f D) (t : Token) : leader? (f t) = (leader? t).map id := by
  unfold leader?
  rw [unseen.kind]
  cases t.kind <;> rfl

namespace Parallel

theorem rule (unseen : Renaming f D) (limit depth : Nat) (r : Rule) :
    Parallel f D (Expr.mapTokens f) (Parse.rule limit depth r) (Parse.rule limit depth r) := by
  induction depth generalizing r with
  | zero => exact tooDeep
  | succ depth ih =>
    cases r with
    | expression => exact nested unseen (ih _)
    | comma | equality | comparison | term | factor =>
      exact leftChain unseen (ih _) _ fun _ _ _ => rfl
    | assignment =>
      refine bind (ih _) fun target => bind (accept? unseen _) fun found => ?_
      cases found with
      | none => exact pure rfl
      | some equals =>
        refine bind (ih _) fun value => ?_
        cases target with
        | reference name => exact pure rfl
        | literal | grouping | unary | binary | comma | conditional | assign =>
          exact bind (report unseen _ _) fun _ => pure rfl
    | ternary =>
      refine bind (ih _) fun condition => bind (accept? unseen _) fun found => ?_
      cases found with
      | none => exact pure rfl
      | some question =>
        exact bind (ih _) fun onTrue => bind (expect unseen _ _) fun _ =>
          bind (ih _) fun onFalse => pure rfl
    | unary =>
      refine bind (takeAt? unseen (ifKind_map unseen _)) fun found => ?_
      cases found with
      | none => exact ih _
      | some operator => exact bind (ih _) fun right => pure rfl
    | primary =>
      refine bind (takeAt? unseen (opening?_map unseen)) fun found => ?_
      cases found with
      | none => exact fail unseen _
      | some opening =>
        cases opening with
        | constant value => exact pure rfl
        | name token => exact pure rfl
        | group => exact bind (ih _) fun inner => bind (expect unseen _ _) fun _ => pure rfl
        | operator token operand => exact bind (report unseen _ _) fun _ => ih _

end Parallel

structure AlikeDeclarations {α : Type} (f : Token → Token) (D : Diagnostic → Diagnostic → Prop)
    (g : α → α) (made made' : α × State) : Prop where
  tree : made'.1 = g made.1
  mirrors : Mirrors f D made.2 made'.2

private theorem alike_recovered (unseen : Renaming f D) {p q : Parser Stmt}
    (inside : Parallel f D (Stmt.mapTokens f) p q) {s s' : State} (mirrors : Mirrors f D s s') :
    AlikeDeclarations f D (Option.map (Stmt.mapTokens f)) (recovered p s) (recovered q s') := by
  unfold recovered
  have ends := inside s s' mirrors
  generalize p s = left at ends
  generalize q s' = right at ends
  cases ends with
  | ok mirrors => exact ⟨rfl, mirrors⟩
  | @error abort _ _ mirrors =>
    cases abort with
    | reported => exact ⟨rfl, mirrors.synchronized unseen⟩
    | tooDeep => exact ⟨rfl, (mirrors.reportNext unseen .tooDeep).synchronized unseen⟩
    | overrun =>
      exact ⟨rfl, ((mirrors.stopped unseen).reportNext unseen .tooDeep).synchronized unseen⟩

private theorem alike_declarations {p q : State → Option Stmt × State} (ends : State → Bool)
    (each : ∀ s s', Mirrors f D s s' →
      AlikeDeclarations f D (Option.map (Stmt.mapTokens f)) (p s) (q s'))
    (same_end : ∀ s s', Mirrors f D s s' → ends s' = ends s) (bound : List Token) {s s' : State}
    (mirrors : Mirrors f D s s') :
    AlikeDeclarations f D (List.map (Stmt.mapTokens f)) (declarations p ends bound s)
      (declarations q ends (bound.map f) s') := by
  induction bound generalizing s s' with
  | nil => exact ⟨rfl, mirrors⟩
  | cons t bound ih =>
    rw [List.map_cons]
    unfold declarations
    rw [same_end s s' mirrors]
    split
    · exact ⟨rfl, mirrors⟩
    · have first := each s s' mirrors
      have more := ih first.mirrors
      refine ⟨?_, more.mirrors⟩
      dsimp only
      rw [first.tree, more.tree, List.map_append]
      cases (p s).1 <;> rfl

namespace Parallel

theorem body (unseen : Renaming f D) {p q : Parser Stmt}
    (inside : Parallel f D (Stmt.mapTokens f) p q) :
    Parallel f D (List.map (Stmt.mapTokens f)) (Parse.body (recovered p))
      (Parse.body (recovered q)) := by
  intro s s' mirrors
  have both := alike_declarations (fun s => s.atEnd || s.sees .rightBrace)
    (fun s s' mirrors => alike_recovered unseen inside mirrors)
    (fun s s' mirrors => by rw [mirrors.atEnd, mirrors.sees unseen]) s.rest mirrors
  unfold Parse.body
  dsimp only
  rw [mirrors.rest, both.tree]
  exact .ok both.mirrors

theorem initializer (unseen : Renaming f D) (limits : Limits) (depth : Nat) :
    Parallel f D (Option.map (Expr.mapTokens f)) (Parse.initializer limits depth)
      (Parse.initializer limits depth) := by
  refine bind (accept? unseen _) fun found => ?_
  cases found with
  | none => exact pure rfl
  | some equals => exact bind (rule unseen _ _ _) fun value => pure rfl

theorem statement (unseen : Renaming f D) (limits : Limits) (depth : Nat) :
    Parallel f D (Stmt.mapTokens f) (Parse.statement limits depth)
      (Parse.statement limits depth) := by
  induction depth with
  | zero => exact tooDeep
  | succ depth ih =>
    refine bind (take? unseen (leader?_map unseen)) fun found => ?_
    cases found with
    | none =>
      exact bind (rule unseen _ _ _) fun value => bind (expect unseen _ _) fun _ => pure rfl
    | some leader =>
      cases leader with
      | declaration =>
        refine bind (expect unseen _ _) fun name => bind (initializer unseen _ _) fun value =>
          bind (expect unseen _ _) fun _ => pure ?_
        exact (Stmt.mapTokens_declare f name value).symm
      | output =>
        exact bind (rule unseen _ _ _) fun value => bind (expect unseen _ _) fun _ => pure rfl
      | block =>
        refine bind (nested unseen (inBlock (body unseen ih))) fun body =>
          bind (expect unseen _ _) fun _ => pure ?_
        rw [Stmt.mapTokens, Stmt.mapBody_eq]

end Parallel

private theorem mirrors_start (unseen : Renaming f D) {tokens tokens' : List Token}
    (rest : tokens'.takeWhile (·.kind != .eof) = (tokens.takeWhile (·.kind != .eof)).map f)
    (finish : ∀ fault, D (.atToken (State.start tokens).finish fault)
      (.atToken (State.start tokens').finish fault)) :
    Mirrors f D (State.start tokens) (State.start tokens') := by
  refine Mirrors.settled unseen ⟨rest, finish, .nil, rfl, rfl⟩

/-- Tokens that the parser cannot tell apart make the same program and the same
faults, each with the tokens replaced. -/
theorem program_renamed (unseen : Renaming f D) (limits : Limits) {tokens tokens' : List Token}
    (rest : tokens'.takeWhile (·.kind != .eof) = (tokens.takeWhile (·.kind != .eof)).map f)
    (finish : ∀ fault, D (.atToken (State.start tokens).finish fault)
      (.atToken (State.start tokens').finish fault)) :
    (program limits tokens').tree = (program limits tokens).tree.map (Stmt.mapTokens f) ∧
      List.Forall₂ D (program limits tokens).diagnostics (program limits tokens').diagnostics := by
  have began := mirrors_start unseen rest finish
  have both := alike_declarations State.atEnd
    (fun s s' mirrors =>
      alike_recovered unseen (Parallel.statement unseen limits limits.depth) mirrors)
    (fun s s' mirrors => mirrors.atEnd) (State.start tokens).rest began
  unfold program statements
  dsimp only
  rw [began.rest]
  exact ⟨both.tree, List.rel_reverse both.mirrors.reports⟩

theorem Parallel.soleExpression (unseen : Renaming f D) (limits : Limits) :
    Parallel f D (Expr.mapTokens f) (Parse.soleExpression limits) (Parse.soleExpression limits) := by
  refine bind (rule unseen _ _ _) fun value => ?_
  intro s s' mirrors
  change Alike f D _ ((if s.atEnd then Pure.pure value else Parse.fail .expectedEnd : Parser Expr) s)
    ((if s'.atEnd then Pure.pure _ else Parse.fail .expectedEnd : Parser Expr) s')
  rw [mirrors.atEnd]
  split
  · exact pure rfl _ _ mirrors
  · exact fail unseen _ _ _ mirrors

theorem Mirrors.quiet {s s' : State} (mirrors : Mirrors f D s s') :
    s'.reports.isEmpty = s.reports.isEmpty := by
  have long := mirrors.reports.length_eq
  rw [Bool.eq_iff_iff, List.isEmpty_iff_length_eq_zero, List.isEmpty_iff_length_eq_zero, long]

/-- Tokens that the parser cannot tell apart make the same expression, or none, and the same
faults, each with the tokens replaced. -/
theorem bareExpression_renamed (unseen : Renaming f D) (limits : Limits)
    {tokens tokens' : List Token}
    (rest : tokens'.takeWhile (·.kind != .eof) = (tokens.takeWhile (·.kind != .eof)).map f)
    (finish : ∀ fault, D (.atToken (State.start tokens).finish fault)
      (.atToken (State.start tokens').finish fault)) :
    (bareExpression limits tokens').tree =
        (bareExpression limits tokens).tree.map (Expr.mapTokens f) ∧
      List.Forall₂ D (bareExpression limits tokens).diagnostics
        (bareExpression limits tokens').diagnostics := by
  have ends := Parallel.soleExpression unseen limits _ _ (mirrors_start unseen rest finish)
  unfold bareExpression
  generalize Parse.soleExpression limits (State.start tokens) = left at ends
  generalize Parse.soleExpression limits (State.start tokens') = right at ends
  cases ends with
  | @ok value s s' mirrors =>
    refine ⟨?_, List.rel_reverse mirrors.reports⟩
    dsimp only
    rw [mirrors.quiet]
    split <;> rfl
  | error mirrors => exact ⟨rfl, List.rel_reverse mirrors.reports⟩

end Rules

end Scriptlet.Parse
