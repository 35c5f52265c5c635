import Scriptlet.Proofs.Parse.Guards

/-! The parser without limits: a rule over itself, and a statement over itself, with no limit
of nesting and no levels of recursion. It comes to an end since a rule uses another one only
when a token has been taken, or when that one is tighter, and a statement takes a token
before it comes to the statements inside. A parse under limits is the parse without limits
unless a guard fires in it. -/
namespace Scriptlet.Parse
open State Grammar

namespace Unlimited

/-- What is left to do for a rule: the tokens to come, and the rules that it is built on. -/
def weight (r : Rule) (s : State) : Nat := 10 * s.rest.length + rank r

/-- A rule without limits. The test always holds where a rule is used (`rule_eq`). -/
def rule (r : Rule) (s : State) : EStateM.Result Abort State Expr :=
  ruleWith none none
    (fun other t => if _lighter : weight other t < weight r s then rule other t
      else .error .tooDeep t) r s
termination_by weight r s

/-- A statement without limits. The test always holds where a statement is read (`statement_eq`). -/
def statement (s : State) : EStateM.Result Abort State Stmt :=
  statementWith none (rule .expression)
    (fun t => if _shorter : t.rest.length < s.rest.length then statement t
      else .error .tooDeep t) s
termination_by s.rest.length

def program (tokens : List Token) : Parsed (List Stmt) := programWith (recovered statement) tokens

end Unlimited

private theorem guards_seek (s : State) (last : Token) : (s.seek last).guards = s.guards := by
  fun_induction State.seek s last with
  | case1 => rfl
  | case2 => rfl
  | case3 s last t more upcoming _ ih => rw [ih, guards_advanced]

private theorem guards_synchronized (s : State) : s.synchronized.guards = s.guards := by
  unfold State.synchronized
  split
  · rfl
  · split
    · rfl
    · rw [guards_seek, guards_advanced]

/-- No guard fires in a run of this parser on so many tokens. -/
def Silent {α : Type} (n : Nat) (p : Parser α) : Prop :=
  ∀ s : State, s.rest.length ≤ n → ¬ Fires s (p s)

namespace Silent
variable {α β : Type} {n : Nat} {p : Parser α}

theorem fewer {m : Nat} (silent : Silent n p) (less : m ≤ n) : Silent m p :=
  fun s covered => silent s (Nat.le_trans covered less)

theorem pure (a : α) : Silent n (Pure.pure a : Parser α) :=
  fun _ _ fires => Nat.lt_irrefl _ (fires_ok.1 fires)

theorem get : Silent n (MonadState.get : Parser State) :=
  fun _ _ fires => Nat.lt_irrefl _ (fires_ok.1 fires)

theorem reported {fault : Fault} (plain : fault.isGuard = false) (t : Token)
    (silent : Silent n p) : Silent n (Parse.report t fault >>= fun _ => p) := by
  intro s covered fires
  refine silent (s.report t fault) covered (fires.later (Nat.le_of_eq ?_))
  rw [guards_report, plain]
  rfl

theorem fail {fault : Fault} (plain : fault.isGuard = false) :
    Silent n (Parse.fail fault : Parser α) := by
  intro s _ fires
  have more := fires_reported.1 fires
  rw [guards_report, plain] at more
  exact Nat.lt_irrefl _ more

theorem bind {f : α → Parser β} (kept : Keeps Follows p) (first : Silent n p)
    (more : ∀ a, Silent n (f a)) : Silent n (p >>= f) := by
  intro s covered fires
  have quiet := first s covered
  have follows := kept s
  cases ran : p s with
  | ok a middle =>
    rw [ran, fires_ok] at quiet
    rw [ran] at follows
    rw [bind_of_ok ran] at fires
    refine more a middle (Nat.le_trans follows.length covered) (fires.imp_right fun grown => ?_)
    omega
  | error abort middle =>
    rw [bind_of_error ran] at fires
    rw [ran] at quiet
    exact quiet (fires_error.2 (fires_error.1 fires))

theorem taken {test : Token → Option α} {f : Option α → Parser β} (refused : Silent n (f none))
    (more : ∀ a m, m < n → Silent m (f (some a))) : Silent n (Parse.take? test >>= f) := by
  intro s covered fires
  cases upcoming : s.rest with
  | nil =>
    have ran : Parse.take? test s = .ok none s := by simp only [Parse.take?, upcoming]
    rw [bind_of_ok ran] at fires
    exact refused s covered fires
  | cons t rest =>
    cases passes : test t with
    | none =>
      have ran : Parse.take? test s = .ok none s := by simp only [Parse.take?, upcoming, passes]
      rw [bind_of_ok ran] at fires
      exact refused s covered fires
    | some a =>
      have ran : Parse.take? test s = .ok (some a) s.advanced := by
        simp only [Parse.take?, upcoming, passes]
      have shorter := length_advanced upcoming
      rw [bind_of_ok ran] at fires
      refine more a s.advanced.rest.length (by omega) s.advanced (Nat.le_refl _)
        (fires.later (Nat.le_of_eq (guards_advanced s)))

theorem accept? (test : Kind → Bool) : Silent n (Parse.accept? test) := by
  have silent : Silent n (Parse.accept? test >>= Pure.pure) :=
    taken (pure none) fun a m _ => pure (some a)
  rwa [bind_pure] at silent

theorem expect (kind : Kind) {fault : Fault} (plain : fault.isGuard = false) :
    Silent n (Parse.expect kind fault) := by
  refine bind (law_follows.closed.accept? _) (accept? _) fun found => ?_
  cases found with
  | none => exact fail plain
  | some t => exact pure t

theorem bracket {enter leave : State → State} (inside : Silent n p)
    (enters : ∀ s, (enter s).guards = s.guards ∧ (enter s).rest = s.rest)
    (leaves : ∀ s, (leave s).guards = s.guards) :
    Silent n (Parse.bracket enter leave p) := by
  intro s covered fires
  refine inside (enter s) (by rwa [(enters s).2]) ?_
  cases ran : p (enter s) with
  | ok a middle =>
    rw [bracket_ok ran, fires_ok, leaves] at fires
    rwa [fires_ok, (enters s).1]
  | error abort middle =>
    rw [bracket_error ran, fires_error, leaves] at fires
    rwa [fires_error, (enters s).1]

theorem nestedWithin (inside : Silent n p) : Silent n (Parse.nestedWithin none p) :=
  bracket (p := fun s => if (none : Option Nat).any (· < s.nesting) then _ else p s)
    (fun s covered => inside s covered) (fun _ => ⟨rfl, rfl⟩) fun _ => rfl

section Expressions
variable {operand : Parser Expr}

theorem extend (kept : Keeps Follows operand) (right : Silent n operand) (isOperator : Kind → Bool)
    (build : Expr → Token → Expr → Expr) (bound : List Token) (left : Expr) :
    Silent n (Parse.extend operand isOperator build bound left) := by
  induction bound generalizing left n with
  | nil => exact pure left
  | cons _ bound ih =>
    refine taken (pure left) fun operator m less => ?_
    have sooner := right.fewer (Nat.le_of_lt less)
    exact bind kept sooner fun value => ih sooner _

theorem leftChain (kept : Keeps Follows operand) (right : Silent n operand) (isOperator : Kind → Bool)
    (build : Expr → Token → Expr → Expr) :
    Silent n (Parse.leftChain operand isOperator build) :=
  bind kept right fun first => bind law_follows.get get fun s =>
    extend kept right isOperator build s.rest first

/-- A rule is silent where the tighter rules are, and all rules behind a token. -/
theorem ruleWith {use : Rule → Parser Expr} (kept : ∀ r, Keeps Follows (use r)) (r : Rule)
    (tighter : ∀ other, rank other < rank r → Silent n (use other))
    (shorter : ∀ other m, m < n → Silent m (use other)) :
    Silent n (Parse.ruleWith none none use r) := by
  cases r with
  | expression => exact nestedWithin (tighter _ (by decide))
  | comma | equality | comparison | term | factor =>
    exact leftChain (kept _) (tighter _ (by decide)) _ _
  | assignment =>
    refine bind (kept _) (tighter _ (by decide)) fun target => ?_
    refine taken (pure target) fun equals m less => ?_
    refine bind (kept _) (shorter _ m less) fun value => ?_
    cases target with
    | reference name => exact pure _
    | literal | grouping | unary | binary | comma | conditional | assign =>
      exact reported rfl _ (pure _)
  | ternary =>
    refine bind (kept _) (tighter _ (by decide)) fun condition => ?_
    refine taken (pure condition) fun question m less => ?_
    exact bind (kept _) (shorter _ m less) fun onTrue =>
      bind (law_follows.closed.expect _ _) (expect _ rfl) fun _ =>
        bind (kept _) (shorter _ m less) fun onFalse => pure _
  | unary =>
    refine taken (tighter _ (by decide)) fun operator m less => ?_
    exact bind (kept _) (shorter _ m less) fun right => pure _
  | primary =>
    refine taken (fail rfl) fun opening m less => ?_
    cases opening with
    | constant value => exact pure _
    | name token => exact pure _
    | group =>
      exact bind (kept _) (shorter _ m less) fun inner =>
        bind (law_follows.closed.expect _ _) (expect _ rfl) fun _ => pure _
    | operator token operand => exact reported rfl _ (shorter _ m less)

end Expressions

section Statements
variable {inner : Parser Stmt} {declaration : State → Option Stmt × State}

theorem recovered (silent : Silent n inner) {s : State} (covered : s.rest.length ≤ n) :
    (Parse.recovered inner s).2.guards ≤ s.guards := by
  have quiet := silent s covered
  unfold Parse.recovered
  cases ran : inner s with
  | ok made middle =>
    rw [ran, fires_ok] at quiet
    exact Nat.le_of_not_lt quiet
  | error abort middle =>
    rw [ran] at quiet
    cases abort with
    | reported =>
      dsimp only
      rw [guards_synchronized]
      exact Nat.le_of_not_lt (mt fires_reported.2 quiet)
    | tooDeep => exact absurd fires_tooDeep quiet
    | overrun => exact absurd fires_overrun quiet

theorem declarations (kept : ∀ s, Follows s (declaration s).2)
    (silent : ∀ s : State, s.rest.length ≤ n → (declaration s).2.guards ≤ s.guards)
    (ends : State → Bool) (bound : List Token) {s : State} (covered : s.rest.length ≤ n) :
    (Parse.declarations declaration ends bound s).2.guards ≤ s.guards := by
  induction bound generalizing s with
  | nil => exact Nat.le_refl _
  | cons _ bound ih =>
    unfold Parse.declarations
    split
    · exact Nat.le_refl _
    · exact Nat.le_trans (ih (Nat.le_trans (kept s).length covered)) (silent s covered)

theorem block (kept : Lawful inner) (silent : Silent n inner) :
    Silent n (Parse.nestedWithin none (Parse.inBlock (Parse.body (Parse.recovered inner)))) := by
  refine nestedWithin (bracket ?_ (fun _ => ⟨rfl, rfl⟩) fun _ => rfl)
  intro s covered fires
  have quiet := declarations (law_follows.recovered (kept law_follows))
    (fun _ => silent.recovered) endsBody s.rest covered
  exact Nat.not_lt.2 quiet (fires_ok.1 fires)

theorem ended {fault : Fault} (plain : fault.isGuard = false) (made : Stmt) :
    Silent n (Parse.expect .semicolon fault >>= fun _ => Pure.pure made) :=
  bind (law_follows.closed.expect _ _) (expect _ plain) fun _ => pure made

theorem statementWith {value : Parser Expr} (keptValue : Lawful value) (keptInner : Lawful inner)
    (values : ∀ m, Silent m value) (shorter : ∀ m, m < n → Silent m inner) :
    Silent n (Parse.statementWith none value inner) := by
  refine taken ?_ fun leader m less => ?_
  · exact bind (keptValue law_follows) (values n) fun _ => ended rfl _
  · cases leader with
    | declaration =>
      refine bind (law_follows.closed.expect _ _) (expect _ rfl) fun name => ?_
      refine bind ((Lifts.initializerWith (.refl keptValue)).lawful law_follows) ?_
        fun _ => ended rfl _
      exact taken (pure none) fun _ k _ =>
        bind (keptValue law_follows) (values k) fun _ => pure _
    | output => exact bind (keptValue law_follows) (values m) fun _ => ended rfl _
    | block =>
      have kept : Lifts (Parse.nestedWithin none _) (Parse.nestedWithin none _) :=
        .nestedWithin (.refl (Parse.lawful.block keptInner)) fun _ exceeded => exceeded
      exact bind (kept.lawful law_follows) (block keptInner (shorter m less)) fun _ =>
        bind (law_follows.closed.expect _ _) (expect _ rfl) fun _ => pure _

end Statements

end Silent

def onlyIf {α : Type} (test : State → Prop) [DecidablePred test] (p : Parser α) : Parser α :=
  fun s => if test s then p s else .error .tooDeep s

section Restricted
variable {α : Type} {test : State → Prop} [DecidablePred test] {p : Parser α}

private theorem keeps_onlyIf {R : State → State → Prop} (law : Law R)
    (inside : ∀ s, test s → R s (after (p s))) : Keeps R (onlyIf test p) := by
  intro s
  unfold onlyIf
  split
  · exact inside s ‹_›
  · exact law.refl s

private theorem lifts_onlyIf (kept : Lawful (onlyIf test p)) : Lifts (onlyIf test p) p where
  lawful := kept
  same s quiet := by
    unfold onlyIf at quiet ⊢
    split at quiet
    · rw [if_pos ‹_›]
    · exact absurd fires_tooDeep quiet

private theorem silent_onlyIf {n : Nat} (met : ∀ s : State, s.rest.length ≤ n → test s ∧ ¬ Fires s (p s)) :
    Silent n (onlyIf test p) := by
  intro s covered
  unfold onlyIf
  rw [if_pos (met s covered).1]
  exact (met s covered).2

end Restricted

namespace Unlimited

section Rules

private theorem rule_unfold (r : Rule) (s : State) :
    rule r s =
      ruleWith none none (fun other => onlyIf (weight other · < weight r s) (rule other)) r s := by
  rw [rule]
  simp only [dite_eq_ite]
  rfl

private theorem lawful_rule (r : Rule) : Lawful (rule r) := by
  intro R law s
  induction n : weight r s using Nat.strongRecOn generalizing R r s with
  | ind n ih =>
    subst n
    have kept : ∀ other, Lawful (onlyIf (weight other · < weight r s) (rule other)) :=
      fun other _ law => keeps_onlyIf law fun t lighter => ih _ lighter other law t rfl
    rw [rule_unfold]
    exact (Lifts.ruleWith (fun other => .refl (kept other)) (fun _ exceeded => exceeded) id r).lawful
      law s

private theorem silent_rule (r : Rule) (s : State) : ¬ Fires s (rule r s) := by
  induction n : weight r s using Nat.strongRecOn generalizing r s with
  | ind n ih =>
    subst n
    rw [rule_unfold]
    refine Silent.ruleWith (fun other => ?_) r (fun other tighter => ?_) (fun other m less => ?_) s
      (Nat.le_refl _)
    · exact keeps_onlyIf law_follows fun t _ => lawful_rule other law_follows t
    · refine silent_onlyIf fun t covered => ?_
      have lighter : weight other t < weight r s := by simp only [weight]; omega
      exact ⟨lighter, ih _ lighter other t rfl⟩
    · refine silent_onlyIf fun t covered => ?_
      have bounded : rank other ≤ 9 := by cases other <;> decide
      have lighter : weight other t < weight r s := by simp only [weight]; omega
      exact ⟨lighter, ih _ lighter other t rfl⟩

theorem rule_eq (r : Rule) : rule r = ruleWith none none rule r := by
  funext s
  have quiet := silent_rule r s
  rw [rule_unfold] at quiet ⊢
  refine (Lifts.same (.ruleWith (fun other => lifts_onlyIf ?_) (fun _ exceeded => exceeded) id r) s
    quiet).symm
  exact fun law => keeps_onlyIf law fun t _ => lawful_rule other law t

end Rules

section Statements

private theorem statement_unfold (s : State) :
    statement s =
      statementWith none (rule .expression)
        (onlyIf (·.rest.length < s.rest.length) statement) s := by
  rw [statement]
  simp only [dite_eq_ite]
  rfl

private theorem lawful_statement : Lawful statement := by
  intro R law s
  induction n : s.rest.length using Nat.strongRecOn generalizing R s with
  | ind n ih =>
    subst n
    have kept : Lawful (onlyIf (·.rest.length < s.rest.length) statement) :=
      fun law => keeps_onlyIf law fun t shorter => ih _ shorter law t rfl
    rw [statement_unfold]
    exact (Lifts.statementWith (.refl (lawful_rule _)) (.refl kept)
      (fun _ exceeded => exceeded)).lawful law s

private theorem silent_statement (s : State) : ¬ Fires s (statement s) := by
  induction n : s.rest.length using Nat.strongRecOn generalizing s with
  | ind n ih =>
    subst n
    rw [statement_unfold]
    refine Silent.statementWith (lawful_rule _) ?_ (fun _ t _ => silent_rule _ t)
      (fun m less => ?_) s (Nat.le_refl _)
    · exact fun law => keeps_onlyIf law fun t _ => lawful_statement law t
    · refine silent_onlyIf fun t covered => ?_
      have shorter : t.rest.length < s.rest.length := Nat.lt_of_le_of_lt covered less
      exact ⟨shorter, ih _ shorter t rfl⟩

theorem statement_eq : statement = statementWith none (rule .expression) statement := by
  funext s
  have quiet := silent_statement s
  rw [statement_unfold] at quiet ⊢
  refine (Lifts.same (.statementWith (.refl (lawful_rule _)) (lifts_onlyIf ?_)
    (fun _ exceeded => exceeded)) s quiet).symm
  exact fun law => keeps_onlyIf law fun t _ => lawful_statement law t

end Statements

theorem program_silent (tokens : List Token) :
    ∀ d ∈ (program tokens).diagnostics, d.fault.isGuard = false := by
  have quiet := Silent.declarations (n := (start tokens).rest.length)
    (law_follows.recovered (lawful_statement law_follows))
    (fun s _ => Silent.recovered (fun s _ => silent_statement s) (Nat.le_refl _))
    atEnd (start tokens).rest (Nat.le_refl _)
  have began : (start tokens).guards = 0 := guards_settled _
  rw [began, Nat.le_zero, guards, List.countP_eq_zero] at quiet
  intro d reported
  exact Bool.eq_false_iff.2 (quiet d (List.mem_reverse.1 reported))

end Unlimited

section Transparency
variable {limits : Limits}

private theorem lifts_unlimited_rule (limit depth : Nat) (r : Rule) :
    Lifts (rule limit depth r) (Unlimited.rule r) := by
  induction depth generalizing r with
  | zero => exact .tooDeep
  | succ depth ih =>
    rw [rule_succ, Unlimited.rule_eq]
    exact .ruleWith ih (fun _ exceeded => Bool.noConfusion exceeded)
      (fun none_left => Bool.noConfusion none_left) r

private theorem lifts_unlimited_statement (limits : Limits) (depth : Nat) :
    Lifts (statement limits depth) Unlimited.statement := by
  induction depth with
  | zero => exact .tooDeep
  | succ depth ih =>
    rw [statement_succ, Unlimited.statement_eq]
    exact .statementWith (lifts_unlimited_rule _ _ _) ih fun _ exceeded =>
      Bool.noConfusion exceeded

/-- A parse is the one without limits just where no guard makes a report. -/
theorem program_eq_unlimited_iff (limits : Limits) (tokens : List Token) :
    program limits tokens = Unlimited.program tokens ↔
      ∀ d ∈ (program limits tokens).diagnostics, d.fault.isGuard = false := by
  constructor
  · intro same
    rw [same]
    exact Unlimited.program_silent tokens
  · intro quiet
    have unlimited := lifts_recovered (lifts_unlimited_statement limits limits.depth)
    exact (programWith_lifted unlimited quiet).symm

/-- The guards are transparent: a parse in which none of them makes a report is the parse
without limits, and the parse under all larger ones. -/
theorem program_unhindered (limits : Limits) (tokens : List Token)
    (quiet : ∀ d ∈ (program limits tokens).diagnostics, d.fault.isGuard = false) :
    program limits tokens = Unlimited.program tokens ∧
      ∀ larger : Limits, limits.nesting ≤ larger.nesting → limits.depth ≤ larger.depth →
        program larger tokens = program limits tokens := by
  refine ⟨(program_eq_unlimited_iff limits tokens).2 quiet, fun larger wider longer => ?_⟩
  exact program_larger wider longer quiet

/-- The second statement has a fault, and the other two nest as far as they may. -/
theorem program_unhindered_faulty :
    let tokens : List Token := [.plain .leftParen 1, .plain .nilWord 1, .plain .rightParen 1,
      .plain .semicolon 1, .plain .varWord 2, .plain .semicolon 2, .plain .leftBrace 3,
      .plain .nilWord 3, .plain .semicolon 3, .plain .rightBrace 3, .eof 3]
    (∀ d ∈ (program ⟨2, 30⟩ tokens).diagnostics, d.fault.isGuard = false) ∧
      (program ⟨2, 30⟩ tokens).diagnostics = [⟨2, .lexeme ";", .expectedName⟩] ∧
      program ⟨2, 30⟩ tokens = Unlimited.program tokens ∧
      program .standard tokens = program ⟨2, 30⟩ tokens := by
  intro tokens
  have quiet : ∀ d ∈ (program ⟨2, 30⟩ tokens).diagnostics, d.fault.isGuard = false := by
    decide +kernel
  have both := program_unhindered ⟨2, 30⟩ tokens quiet
  exact ⟨quiet, by decide +kernel, both.1, both.2 .standard (by decide) (by decide)⟩

end Transparency

end Scriptlet.Parse
