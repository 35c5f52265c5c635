import Scriptlet.Proofs.Parse.Progress

/-! The guards of the parser are the limit of nesting and the levels of recursion. A rule
and a statement are written down once more with what they use left open: the limit and the
levels, if there are any, and the rules and statements inside. Whatever that is filled in with, looser
guards change nothing about a run in which no guard fires; and a guard that fires leaves a
report of it, which nothing takes back. -/
namespace Scriptlet

def Fault.isGuard : Fault → Bool
  | tooMuchNesting | tooDeep => true
  | _ => false

namespace Parse
open State Grammar

section Open

def nestedWithin {α : Type} (limit? : Option Nat) (body : Parser α) : Parser α :=
  bracket deeper (fun s => { s with nesting := s.nesting - 1 })
    fun s => if limit?.any (· < s.nesting) then fail .tooMuchNesting s else body s

private theorem nestedWithin_some {α : Type} (limit : Nat) (body : Parser α) :
    nestedWithin (some limit) body = nested limit body := by
  simp only [nestedWithin, nested, Option.any_some, decide_eq_true_eq]
  rfl

def takeWithin? {α : Type} (levels? : Option Nat) (test : Token → Option α) :
    Parser (Option α) :=
  match levels? with
  | none => take? test
  | some levels => takeAt? levels test

private theorem takeWithin?_eq {α : Type} (levels? : Option Nat) (test : Token → Option α) (s : State) :
    takeWithin? levels? test s =
      if levels?.any (· == 0) ∧ s.errorBehind?.isSome ∧ (s.rest.head?.bind test).isSome then
        .error .overrun s
      else take? test s := by
  cases levels? with
  | none => exact (if_neg (by simp)).symm
  | some levels => simpa [takeWithin?] using takeAt?_eq levels test s

private theorem gives_takeWithin? {α : Type} {levels? : Option Nat} {test : Token → Option α} {a : α}
    (gives : Gives (takeWithin? levels? test) (some a)) : ∃ t, test t = some a := by
  cases levels? with
  | none => exact gives_take? gives
  | some levels => exact gives_takeAt? gives

/-- A rule of the grammar over the rules that it uses. -/
def ruleWith (limit? levels? : Option Nat) (use : Rule → Parser Expr) : Rule → Parser Expr
  | .expression => nestedWithin limit? (use .comma)
  | .comma => leftChain (use .assignment) (· == .comma) .comma
  | .assignment => do
    let target ← use .ternary
    match ← accept? (· == .equal) with
    | none => return target
    | some equals =>
      let value ← use .assignment
      match target with
      | .reference name => return .assign name value
      | _ =>
        report equals .invalidTarget
        return target
  | .ternary => do
    let condition ← use .equality
    match ← accept? (· == .question) with
    | none => return condition
    | some _ =>
      let onTrue ← use .expression
      let _ ← expect .colon .colonAfterExpression
      let onFalse ← use .ternary
      return .conditional condition onTrue onFalse
  | .equality => leftChain (use .comparison) Kind.isEquality .binary
  | .comparison => leftChain (use .term) Kind.isComparison .binary
  | .term => leftChain (use .factor) Kind.isTerm .binary
  | .factor => leftChain (use .unary) Kind.isFactor .binary
  | .unary => do
    match ← takeWithin? levels? (ifKind isUnaryOperator) with
    | some operator => return .unary operator (← use .unary)
    | none => use .primary
  | .primary => do
    match ← takeWithin? levels? opening? with
    | none => fail .expectedExpression
    | some (.constant value) => return .literal value
    | some (.name token) => return .reference token
    | some .group =>
      let inner ← use .expression
      let _ ← expect .rightParen .parenthesisAfterExpression
      return .grouping inner
    | some (.operator token operand) =>
      report token .missingLeftOperand
      use operand

theorem rule_succ (limit depth : Nat) (r : Rule) :
    rule limit (depth + 1) r = ruleWith (some limit) (some depth) (rule limit depth) r := by
  cases r with
  | expression => exact (nestedWithin_some limit _).symm
  | _ => rfl

def initializerWith (value : Parser Expr) : Parser (Option Expr) := do
  match ← accept? (· == .equal) with
  | none => return none
  | some _ => return some (← value)

def statementWith (limit? : Option Nat) (value : Parser Expr) (inner : Parser Stmt) :
    Parser Stmt := do
  match ← take? leader? with
  | some .declaration =>
    let name ← expect .identifier .expectedName
    let initial ← initializerWith value
    let _ ← expect .semicolon .semicolonAfterDeclaration
    return .declare name initial
  | some .output =>
    let printed ← value
    let _ ← expect .semicolon .semicolonAfterValue
    return .print printed
  | some .block =>
    let statements ← nestedWithin limit? (inBlock (body (recovered inner)))
    let _ ← expect .rightBrace .braceAfterBlock
    return .block statements
  | none =>
    let alone ← value
    let _ ← expect .semicolon .semicolonAfterExpression
    return .expression alone

theorem statement_succ (limits : Limits) (depth : Nat) :
    statement limits (depth + 1) =
      statementWith (some limits.nesting) (rule limits.nesting depth .expression)
        (statement limits depth) := by
  simp only [statementWith, nestedWithin_some]
  rfl

def programWith (declaration : State → Option Stmt × State) (tokens : List Token) :
    Parsed (List Stmt) :=
  let (found, s) := declarations declaration atEnd (start tokens).rest (start tokens)
  ⟨found, s.reports.reverse⟩

end Open

/-- Every law of the parser holds of this one. -/
def Lawful {α : Type} (p : Parser α) : Prop := ∀ {R : State → State → Prop}, Law R → Keeps R p

theorem lawful : Closed fun p => Lawful p where
  pure a := fun law => law.pure a
  bind first more := fun law => law.bind (first law) fun a => more a law
  get := fun law => law.get
  tooDeep := fun law => law.thrown .tooDeep
  take? test := fun law => law.take? test
  takeAt? levels test := fun law => law.takeAt? levels test
  report usable fault := fun law s => law.report s usable fault
  fail fault := fun law => law.fail fault
  nested inside := fun law => law.nested (inside law)
  block inside := fun law => law.closed.block (inside law)

/-- How many of the reports so far are the work of a guard. -/
def State.guards (s : State) : Nat := s.reports.countP (·.fault.isGuard)

private theorem guards_le {s s' : State} (kept : s.reports <:+ s'.reports) : s.guards ≤ s'.guards :=
  kept.sublist.countP_le

theorem guards_report (s : State) (t : Token) (fault : Fault) :
    (s.report t fault).guards = s.guards + if fault.isGuard then 1 else 0 := by
  simp [guards, State.report, List.countP_cons, Diagnostic.atToken]

theorem guards_settled (s : State) : s.settled.guards = s.guards := by
  have lexical : ((s.rest.takeWhile isLexicalError).map Diagnostic.lexical).countP
      (·.fault.isGuard) = 0 := by
    rw [List.countP_eq_zero]
    intro d member
    obtain ⟨t, -, rfl⟩ := List.mem_map.1 member
    simp [Diagnostic.lexical, Fault.isGuard]
  simp [guards, settled, lexical]

theorem guards_advanced (s : State) : s.advanced.guards = s.guards := guards_settled _

/-- A guard fires in a run that began here: it abandons the run or leaves a report. -/
def Fires {α : Type} (s : State) (result : EStateM.Result Abort State α) : Prop :=
  (∃ abort s', result = .error abort s' ∧ abort ≠ .reported) ∨ s.guards < (after result).guards

section Firing
variable {α β : Type} {s s' middle : State} {a : α} {result : EStateM.Result Abort State β}

@[simp] theorem fires_ok : Fires s (.ok a s') ↔ s.guards < s'.guards := by simp [Fires, after]

@[simp] theorem fires_error {abort : Abort} :
    Fires s (.error abort s' : EStateM.Result Abort State α) ↔
      abort ≠ .reported ∨ s.guards < s'.guards := by
  simp [Fires, after]

theorem fires_reported :
    Fires s (.error .reported s' : EStateM.Result Abort State α) ↔ s.guards < s'.guards := by
  simp

theorem fires_tooDeep : Fires s (.error .tooDeep s' : EStateM.Result Abort State α) :=
  fires_error.2 (.inl nofun)

theorem fires_overrun : Fires s (.error .overrun s' : EStateM.Result Abort State α) :=
  fires_error.2 (.inl nofun)

theorem Fires.later (fires : Fires middle result) (kept : s.guards ≤ middle.guards) :
    Fires s result :=
  fires.imp_right (Nat.lt_of_le_of_lt kept)

private theorem fires_recovered {p : Parser Stmt} (kept : Lawful p) (fires : Fires s (p s)) :
    s.guards < (recovered p s).2.guards := by
  have began := guards_le (kept law_reports s)
  unfold recovered
  cases ran : p s with
  | ok made middle =>
    rw [ran] at fires
    exact fires_ok.1 fires
  | error abort middle =>
    rw [ran] at fires began
    -- the report of a guard is made in any case
    have recorded : ∀ stood : State, stood.guards = middle.guards →
        s.guards < (stood.report stood.next .tooDeep).synchronized.guards := by
      intro stood same
      have made := guards_report stood stood.next .tooDeep
      have later := guards_le (law_reports.synchronized (stood.report stood.next .tooDeep))
      simp only [Fault.isGuard, if_true] at made
      simp only [after] at began
      omega
    cases abort with
    | reported =>
      exact Nat.lt_of_lt_of_le (fires_reported.1 fires)
        (guards_le (law_reports.synchronized middle))
    | tooDeep => exact recorded middle rfl
    | overrun => exact recorded middle.stopped (by rw [guards, middle.reports_stopped, guards])

end Firing

/-- Where no guard fires in a run of the first parser, the second one runs the same way. -/
structure Lifts {α : Type} (p q : Parser α) : Prop where
  lawful : Lawful p
  same : ∀ s, ¬ Fires s (p s) → q s = p s

namespace Lifts
variable {α β : Type} {p q : Parser α} {limit? looser? levels? longer? : Option Nat}

theorem refl (kept : Lawful p) : Lifts p p := ⟨kept, fun _ _ => rfl⟩

theorem tooDeep : Lifts (throw .tooDeep) q :=
  ⟨Parse.lawful.tooDeep, fun _ quiet => absurd fires_tooDeep quiet⟩

theorem takeWithin? {levels? longer? : Option Nat} (test : Token → Option α)
    (longer : longer?.any (· == 0) = true → levels?.any (· == 0) = true) :
    Lifts (Parse.takeWithin? levels? test) (Parse.takeWithin? longer? test) where
  lawful := by
    cases levels? with
    | none => exact Parse.lawful.take? test
    | some levels => exact Parse.lawful.takeAt? levels test
  same s quiet := by
    rw [takeWithin?_eq] at quiet
    rw [takeWithin?_eq, takeWithin?_eq]
    split at quiet
    · exact absurd fires_overrun quiet
    · rename_i enough
      rw [if_neg enough, if_neg fun short => enough ⟨longer short.1, short.2⟩]

theorem accept? (test : Kind → Bool) : Lifts (Parse.accept? test) (Parse.accept? test) :=
  refl (Parse.lawful.accept? test)

theorem expect (kind : Kind) (fault : Fault) :
    Lifts (Parse.expect kind fault) (Parse.expect kind fault) :=
  refl (Parse.lawful.expect kind fault)

theorem pure (a : α) : Lifts (Pure.pure a) (Pure.pure a) := refl (Parse.lawful.pure a)

theorem bindGiven {f g : α → Parser β} (first : Lifts p q)
    (more : ∀ a, Gives p a → Lifts (f a) (g a)) : Lifts (p >>= f) (q >>= g) where
  lawful := Parse.lawful.bindGiven first.lawful fun a given => (more a given).lawful
  same s quiet := by
    have began := guards_le (first.lawful law_reports s)
    cases ran : p s with
    | ok a middle =>
      have next := more a ⟨s, middle, ran⟩
      have kept := guards_le (next.lawful law_reports middle)
      rw [ran] at began
      rw [bind_of_ok ran] at quiet ⊢
      have same := first.same s fun fires => quiet <| by
        rw [ran, fires_ok] at fires
        exact .inr (Nat.lt_of_lt_of_le fires kept)
      rw [bind_of_ok (same.trans ran)]
      exact next.same middle fun fires => quiet (fires.later began)
    | error abort middle =>
      rw [bind_of_error ran] at quiet ⊢
      have same := first.same s fun fires => quiet <| by
        rw [ran] at fires
        exact fires_error.2 (fires_error.1 fires)
      exact bind_of_error (same.trans ran)

theorem bind {f g : α → Parser β} (first : Lifts p q) (more : ∀ a, Lifts (f a) (g a)) :
    Lifts (p >>= f) (q >>= g) :=
  first.bindGiven fun a _ => more a

theorem bracket {enter leave : State → State} (inside : Lifts p q)
    (laws : ∀ {R : State → State → Prop}, Law R → ∀ {s s'}, R (enter s) s' → R s (leave s'))
    (enters : ∀ s, (enter s).guards = s.guards) (leaves : ∀ s, (leave s).guards = s.guards) :
    Lifts (Parse.bracket enter leave p) (Parse.bracket enter leave q) where
  lawful := fun law => Keeps.bracket (inside.lawful law) (laws law)
  same s quiet := by
    have same := inside.same (enter s) fun fires => quiet <| by
      cases ran : p (enter s) with
      | ok a middle =>
        rw [ran, fires_ok, enters] at fires
        rw [bracket_ok ran, fires_ok, leaves]
        exact fires
      | error abort middle =>
        rw [ran, fires_error, enters] at fires
        rw [bracket_error ran, fires_error, leaves]
        exact fires
    unfold Parse.bracket
    rw [same]

theorem guarded (inside : Lifts p q)
    (looser : ∀ n, looser?.any (· < n) = true → limit?.any (· < n) = true) :
    Lifts (fun s => if limit?.any (· < s.nesting) then Parse.fail .tooMuchNesting s else p s)
      (fun s => if looser?.any (· < s.nesting) then Parse.fail .tooMuchNesting s else q s) where
  lawful {R} law s := by
    show R s (after (if _ then _ else _))
    split
    · exact law.fail _ s
    · exact inside.lawful law s
  same s quiet := by
    show (if _ then _ else _) = (if _ then _ else _)
    by_cases exceeded : limit?.any (· < s.nesting) = true
    · -- that is reported
      have made := guards_report s s.next .tooMuchNesting
      refine absurd ?_ quiet
      show Fires s (if _ then _ else _)
      rw [if_pos exceeded]
      simp only [Fault.isGuard, if_true] at made
      exact fires_reported.2 (by omega)
    · rw [if_neg exceeded, if_neg (mt (looser s.nesting) exceeded)]
      refine inside.same s fun fires => quiet ?_
      show Fires s (if _ then _ else _)
      rwa [if_neg exceeded]

theorem nestedWithin (inside : Lifts p q)
    (looser : ∀ n, looser?.any (· < n) = true → limit?.any (· < n) = true) :
    Lifts (Parse.nestedWithin limit? p) (Parse.nestedWithin looser? q) :=
  bracket (guarded inside looser) (fun law => law.deeper) (fun _ => rfl) fun _ => rfl

section Expressions
variable {operand operand' : Parser Expr}

theorem extend (right : Lifts operand operand') (isOperator : Kind → Bool)
    (build : Expr → Token → Expr → Expr) (bound : List Token) (left : Expr) :
    Lifts (Parse.extend operand isOperator build bound left)
      (Parse.extend operand' isOperator build bound left) := by
  induction bound generalizing left with
  | nil => exact pure left
  | cons _ bound ih =>
    refine bind (accept? _) fun found => ?_
    cases found with
    | none => exact pure left
    | some operator => exact bind right fun value => ih _

theorem leftChain (right : Lifts operand operand') (isOperator : Kind → Bool)
    (build : Expr → Token → Expr → Expr) :
    Lifts (Parse.leftChain operand isOperator build) (Parse.leftChain operand' isOperator build) :=
  bind right fun first => bind (refl Parse.lawful.get) fun s => extend right _ _ s.rest first

/-- One case a rule: it only runs what it uses, and nests that where it is an expression. -/
theorem ruleWith {use use' : Rule → Parser Expr} (uses : ∀ r, Lifts (use r) (use' r))
    (looser : ∀ n, looser?.any (· < n) = true → limit?.any (· < n) = true)
    (longer : longer?.any (· == 0) = true → levels?.any (· == 0) = true) (r : Rule) :
    Lifts (Parse.ruleWith limit? levels? use r) (Parse.ruleWith looser? longer? use' r) := by
  cases r with
  | expression => exact nestedWithin (uses _) looser
  | comma | equality | comparison | term | factor => exact leftChain (uses _) _ _
  | assignment =>
    refine bind (uses _) fun target => (accept? _).bindGiven fun found given => ?_
    cases found with
    | none => exact pure target
    | some equals =>
      have sort : equals.kind = .equal := beq_iff_eq.1 (gives_accept? given :)
      refine bind (uses _) fun value => ?_
      cases target with
      | reference name => exact pure _
      | literal | grouping | unary | binary | comma | conditional | assign =>
        exact bind (refl (Parse.lawful.report (by rw [sort]; decide) _)) fun _ => pure _
  | ternary =>
    refine bind (uses _) fun condition => bind (accept? _) fun found => ?_
    cases found with
    | none => exact pure condition
    | some question =>
      exact bind (uses _) fun onTrue => bind (expect _ _) fun _ =>
        bind (uses _) fun onFalse => pure _
  | unary =>
    refine bind (takeWithin? _ longer) fun found => ?_
    cases found with
    | none => exact uses _
    | some operator => exact bind (uses _) fun right => pure _
  | primary =>
    refine bindGiven (takeWithin? _ longer) fun found given => ?_
    cases found with
    | none => exact refl (Parse.lawful.fail _)
    | some opening =>
      obtain ⟨t, opens⟩ := gives_takeWithin? given
      cases opening with
      | constant value => exact pure _
      | name token => exact pure _
      | group => exact bind (uses _) fun inner => bind (expect _ _) fun _ => pure _
      | operator token operand =>
        exact bind (refl (Parse.lawful.report (usable_of_opening? opens) _)) fun _ => uses _

end Expressions

theorem initializerWith {value value' : Parser Expr} (initial : Lifts value value') :
    Lifts (Parse.initializerWith value) (Parse.initializerWith value') := by
  refine bind (accept? _) fun found => ?_
  cases found with
  | none => exact pure none
  | some equals => exact bind initial fun value => pure _

theorem ended (fault : Fault) (made : Stmt) :
    Lifts (Parse.expect .semicolon fault >>= fun _ => Pure.pure made)
      (Parse.expect .semicolon fault >>= fun _ => Pure.pure made) :=
  refl (Parse.lawful.ended fault made)

end Lifts

structure LiftsStep (f g : State → Option Stmt × State) : Prop where
  lawful : ∀ {R : State → State → Prop}, Law R → ∀ s, R s (f s).2
  same : ∀ s, ¬ s.guards < (f s).2.guards → g s = f s

section Declarations
variable {p q : Parser Stmt} {f g : State → Option Stmt × State}

theorem lifts_recovered (inside : Lifts p q) : LiftsStep (recovered p) (recovered q) where
  lawful law := law.recovered (inside.lawful law)
  same s quiet := by
    have same := inside.same s fun fires => quiet (fires_recovered inside.lawful fires)
    unfold recovered
    rw [same]

private theorem lifts_declarations (step : LiftsStep f g) (ends : State → Bool) (bound : List Token)
    (s : State)
    (quiet : ¬ s.guards < (declarations f ends bound s).2.guards) :
    declarations g ends bound s = declarations f ends bound s := by
  induction bound generalizing s with
  | nil => rfl
  | cons _ bound ih =>
    cases ended : ends s with
    | true => rw [declarations_ended ended, declarations_ended ended]
    | false =>
      have first := guards_le (step.lawful law_reports s)
      have more := guards_le (law_reports.declarations (step.lawful law_reports) ends bound (f s).2)
      simp only [declarations, ended, Bool.false_eq_true, if_false] at quiet ⊢
      rw [step.same s (by omega), ih (f s).2 (by omega)]

theorem Lifts.body (step : LiftsStep f g) : Lifts (Parse.body f) (Parse.body g) where
  lawful law s := law.declarations (step.lawful law) _ _ s
  same s quiet := by
    have same := lifts_declarations step endsBody s.rest s fun more => quiet (fires_ok.2 more)
    rw [body_eq, body_eq, same]

theorem Lifts.inBlock {α : Type} {p q : Parser α} (inside : Lifts p q) :
    Lifts (Parse.inBlock p) (Parse.inBlock q) :=
  bracket inside (fun law => law.inner) (fun _ => rfl) fun _ => rfl

theorem Lifts.statementWith {limit? looser? : Option Nat} {value value' : Parser Expr}
    {inner inner' : Parser Stmt} (values : Lifts value value') (inners : Lifts inner inner')
    (looser : ∀ n, looser?.any (· < n) = true → limit?.any (· < n) = true) :
    Lifts (Parse.statementWith limit? value inner) (Parse.statementWith looser? value' inner') := by
  refine bind (refl (Parse.lawful.take? _)) fun found => ?_
  cases found with
  | none => exact bind values fun _ => ended _ _
  | some leader =>
    cases leader with
    | declaration =>
      exact bind (expect _ _) fun _ => bind (initializerWith values) fun _ => ended _ _
    | output => exact bind values fun _ => ended _ _
    | block =>
      exact bind (nestedWithin (inBlock (body (lifts_recovered inners))) looser) fun _ =>
        bind (expect _ _) fun _ => pure _

/-- A parse in which no guard fires is the parse under any looser guards. -/
theorem programWith_lifted (step : LiftsStep f g) {tokens : List Token}
    (quiet : ∀ d ∈ (programWith f tokens).diagnostics, d.fault.isGuard = false) :
    programWith g tokens = programWith f tokens := by
  have none_left : (declarations f atEnd (start tokens).rest (start tokens)).2.guards = 0 := by
    rw [guards, List.countP_eq_zero]
    intro d member
    rw [quiet d (List.mem_reverse.2 member)]
    exact Bool.false_ne_true
  have same := lifts_declarations step atEnd (start tokens).rest (start tokens) (by omega)
  unfold programWith
  rw [same]

end Declarations

section Limits
variable {limits larger : Limits}

private theorem any_le {limit looser : Nat} (le : limit ≤ looser) (n : Nat)
    (exceeded : (some looser).any (· < n) = true) : (some limit).any (· < n) = true := by
  simp only [Option.any_some, decide_eq_true_eq] at exceeded ⊢
  omega

theorem lifts_rule {limit looser depth deeper : Nat} (wider : limit ≤ looser)
    (longer : depth ≤ deeper) (r : Rule) :
    Lifts (rule limit depth r) (rule looser deeper r) := by
  induction depth generalizing deeper r with
  | zero => exact .tooDeep
  | succ depth ih =>
    obtain _ | deeper := deeper
    · cases longer
    · rw [rule_succ, rule_succ]
      have less := Nat.le_of_succ_le_succ longer
      refine .ruleWith (ih less) (any_le wider) (fun none_left => ?_) r
      simp only [Option.any_some, beq_iff_eq] at none_left ⊢
      omega

private theorem lifts_statement {depth deeper : Nat} (wider : limits.nesting ≤ larger.nesting)
    (longer : depth ≤ deeper) :
    Lifts (statement limits depth) (statement larger deeper) := by
  induction depth generalizing deeper with
  | zero => exact .tooDeep
  | succ depth ih =>
    obtain _ | deeper := deeper
    · cases longer
    · have less := Nat.le_of_succ_le_succ longer
      rw [statement_succ, statement_succ]
      exact .statementWith (lifts_rule wider less _) (ih less) (any_le wider)

theorem program_larger (wider : limits.nesting ≤ larger.nesting)
    (longer : limits.depth ≤ larger.depth) {tokens : List Token}
    (quiet : ∀ d ∈ (program limits tokens).diagnostics, d.fault.isGuard = false) :
    program larger tokens = program limits tokens :=
  programWith_lifted (lifts_recovered (lifts_statement wider longer)) quiet

end Limits

end Parse

end Scriptlet
