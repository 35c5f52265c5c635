import Scriptlet.Proofs.Grammar.Derivation
import Scriptlet.Proofs.Parse.Abort

/-! A rule that succeeds without any report has taken tokens that the grammar
derives, with the tree it returns, and never went further in than the limit.
The same holds of a statement and of a whole program. -/
namespace Scriptlet.Grammar
open Parse Parse.State

/-- What a rule adds to the nesting by itself. -/
def entry : Rule → Nat
  | .expression => 1
  | _ => 0

namespace Chained
variable {r operand : Rule} {isOperator : Kind → Bool} {build : Expr → Token → Expr → Expr}

theorem entry_eq (level : Chained r operand isOperator build) : entry r = 0 := by
  cases level <;> rfl

theorem entry_operand (level : Chained r operand isOperator build) : entry operand = 0 := by
  cases level <;> rfl

theorem nesting_build (level : Chained r operand isOperator build) (left : Expr) (t : Token)
    (right : Expr) : (build left t right).nesting = max left.nesting right.nesting := by
  cases level <;> rfl

theorem nesting_folded (level : Chained r operand isOperator build) {n : Nat} {first : Expr}
    {links : List Link} :
    (folded build first links).nesting ≤ n ↔
      first.nesting ≤ n ∧ ∀ link ∈ links, link.right.nesting ≤ n := by
  induction links generalizing first with
  | nil => simp [folded]
  | cons link links ih =>
    have grown := @ih (build first link.operator link.right)
    rw [level.nesting_build, Nat.max_le] at grown
    rw [List.forall_mem_cons, ← and_assoc]
    exact grown

/-- The parser chains operands by the operators of the grammar. -/
theorem rule_eq (level : Chained r operand isOperator build) (limit depth : Nat) :
    rule limit (depth + 1) r = leftChain (rule limit depth operand) isOperator build := by
  have comma : (· == Kind.comma) = oneOf [.comma] := by funext kind; cases kind <;> rfl
  have equality : Kind.isEquality = oneOf [.bangEqual, .equalEqual] := by
    funext kind; cases kind <;> rfl
  have comparison : Kind.isComparison = oneOf [.greater, .greaterEqual, .less, .lessEqual] := by
    funext kind; cases kind <;> rfl
  have term : Kind.isTerm = oneOf [.minus, .plus] := by funext kind; cases kind <;> rfl
  have factor : Kind.isFactor = oneOf [.slash, .star] := by funext kind; cases kind <;> rfl
  cases level with
  | comma => rw [← comma]; rfl
  | equality => rw [← equality]; rfl
  | comparison => rw [← comparison]; rfl
  | term => rw [← term]; rfl
  | factor => rw [← factor]; rfl

end Chained

/-- Successful runs without any report follow a rule of the grammar. -/
def Sound (limit : Nat) (p : Parser Expr) (r : Rule) : Prop :=
  ∀ s e s', p s = .ok e s' → s'.reports = [] →
    ∃ ts, Passed s ts s' ∧ Derives r ts e ∧
      (s.nesting ≤ limit → s.nesting + (e.nesting + entry r) ≤ limit)

private theorem passed_of_deeper {s after : State} {ts : List Token} (passed : Passed s.deeper ts after) :
    Passed s ts { after with nesting := after.nesting - 1 } := by
  refine ⟨passed.quiet, passed.split, ?_⟩
  rw [passed.frame]
  rfl

private theorem passed_of_inner {s after : State} {ts : List Token} (passed : Passed s.inner ts after) :
    Passed s ts { after with blocks := after.blocks - 1 } := by
  refine ⟨passed.quiet, passed.split, ?_⟩
  rw [passed.frame]
  rfl

private theorem ok_of_body {declaration : State → Option Stmt × State} {s s' : State} {found : List Stmt}
    (ran : body declaration s = .ok found s') :
    declarations declaration (fun s => s.atEnd || s.sees .rightBrace) s.rest s = (found, s') := by
  cases ran
  rfl

theorem start_rest {tokens : List Token} (quiet : (State.start tokens).reports = []) :
    (State.start tokens).rest = tokens.takeWhile (·.kind != .eof) := by
  simp only [State.start, settled, List.append_nil, List.reverse_eq_nil_iff,
    List.map_eq_nil_iff] at quiet ⊢
  have whole := List.takeWhile_append_dropWhile (p := isLexicalError)
    (l := tokens.takeWhile (·.kind != .eof))
  rwa [quiet, List.nil_append] at whole

private theorem sound_expression {limit depth : Nat}
    (comma : Sound limit (rule limit depth .comma) .comma) :
    Sound limit (rule limit (depth + 1) .expression) .expression := by
  intro s e s' ran quiet
  obtain ⟨room, after, inside, rfl⟩ := ok_of_nested ran
  obtain ⟨ts, passed, derived, fits⟩ := comma _ _ _ inside quiet
  refine ⟨ts, passed_of_deeper passed, .expression derived, fun _ => ?_⟩
  have deep := fits room
  simp only [deeper, entry] at deep ⊢
  omega

private theorem extend_sound {limit : Nat} {r operand : Rule} {p : Parser Expr} {isOperator : Kind → Bool}
    {build : Expr → Token → Expr → Expr} (level : Chained r operand isOperator build)
    (right : Sound limit p operand) (bound : List Token) (left : Expr) (s : State) (e : Expr)
    (s' : State) (ran : extend p isOperator build bound left s = .ok e s')
    (quiet : s'.reports = []) :
    ∃ links : List Link, Passed s (links.flatMap Link.yield) s' ∧ e = folded build left links ∧
      (∀ link ∈ links, isOperator link.operator.kind = true) ∧
      (∀ link ∈ links, Derives operand link.tokens link.right) ∧
      (s.nesting ≤ limit → ∀ link ∈ links, s.nesting + link.right.nesting ≤ limit) := by
  induction bound generalizing left s with
  | nil =>
    cases ran
    exact ⟨[], .refl quiet, rfl, by simp, by simp, by simp⟩
  | cons _ bound ih =>
    obtain ⟨found, middle, accepted, ran⟩ := ok_of_bind ran
    cases found with
    | none =>
      cases ran
      obtain rfl := eq_of_accept?_none accepted
      exact ⟨[], .refl quiet, rfl, by simp, by simp, by simp⟩
    | some operator =>
      obtain ⟨value, after, operated, ran⟩ := ok_of_bind ran
      -- read backwards: a quiet end makes each step before it quiet
      obtain ⟨links, more, rfl, signs, rights, inside⟩ := ih _ _ ran
      obtain ⟨us, passed, derived, fits⟩ := right _ _ _ operated more.quiet
      obtain ⟨sign, taken⟩ := passed_of_accept? accepted passed.quiet
      rw [level.entry_operand, taken.nesting] at fits
      rw [passed.nesting, taken.nesting] at inside
      refine ⟨⟨operator, us, value⟩ :: links, ?_, rfl, ?_, ?_, ?_⟩
      · simpa [Link.yield] using (taken.trans passed).trans more
      · simpa using ⟨sign, signs⟩
      · simpa using ⟨derived, rights⟩
      · intro bounded
        simpa using ⟨fits bounded, inside bounded⟩

private theorem sound_chain {limit depth : Nat} {r operand : Rule} {isOperator : Kind → Bool}
    {build : Expr → Token → Expr → Expr} (level : Chained r operand isOperator build)
    (right : Sound limit (rule limit depth operand) operand) :
    Sound limit (rule limit (depth + 1) r) r := by
  intro s e s' ran quiet
  rw [level.rule_eq] at ran
  obtain ⟨first, middle, began, ran⟩ := ok_of_bind ran
  obtain ⟨links, more, rfl, signs, rights, inside⟩ := extend_sound level right _ _ _ _ _ ran quiet
  obtain ⟨ts, passed, derived, fits⟩ := right _ _ _ began more.quiet
  refine ⟨_, passed.trans more, .chain level derived signs rights, fun bounded => ?_⟩
  rw [passed.nesting] at inside
  have head := fits bounded
  rw [level.entry_operand] at head
  rw [level.entry_eq]
  have each : ∀ link ∈ links, link.right.nesting ≤ limit - s.nesting := by
    intro link member
    have fits := inside bounded link member
    omega
  have whole := level.nesting_folded.2 ⟨show first.nesting ≤ limit - s.nesting by omega, each⟩
  omega

private theorem sound_assignment {limit depth : Nat}
    (ternary : Sound limit (rule limit depth .ternary) .ternary)
    (assignment : Sound limit (rule limit depth .assignment) .assignment) :
    Sound limit (rule limit (depth + 1) .assignment) .assignment := by
  intro s e s' ran quiet
  obtain ⟨target, s₁, targeted, ran⟩ := ok_of_bind ran
  obtain ⟨found, s₂, accepted, ran⟩ := ok_of_bind ran
  cases found with
  | none =>
    cases ran
    obtain rfl := eq_of_accept?_none accepted
    obtain ⟨ts, passed, derived, fits⟩ := ternary _ _ _ targeted quiet
    exact ⟨ts, passed, .unassigned derived, fits⟩
  | some equals =>
    obtain ⟨value, s₃, valued, ran⟩ := ok_of_bind ran
    split at ran
    · rename_i name
      cases ran
      obtain ⟨us, second, source, fits⟩ := assignment _ _ _ valued quiet
      obtain ⟨sign, taken⟩ := passed_of_accept? accepted second.quiet
      obtain ⟨ts, first, derived, _⟩ := ternary _ _ _ targeted taken.quiet
      refine ⟨ts ++ equals :: us, ?_, .assign derived (by simpa using sign) source, ?_⟩
      · simpa using (first.trans taken).trans second
      · rw [taken.nesting, first.nesting] at fits
        exact fits
    · -- a target that is no name leaves a report
      obtain ⟨_, s₄, reported, ran⟩ := ok_of_bind ran
      cases reported
      cases ran
      cases quiet

private theorem sound_ternary {limit depth : Nat}
    (equality : Sound limit (rule limit depth .equality) .equality)
    (expression : Sound limit (rule limit depth .expression) .expression)
    (ternary : Sound limit (rule limit depth .ternary) .ternary) :
    Sound limit (rule limit (depth + 1) .ternary) .ternary := by
  intro s e s' ran quiet
  obtain ⟨condition, s₁, tested, ran⟩ := ok_of_bind ran
  obtain ⟨found, s₂, accepted, ran⟩ := ok_of_bind ran
  cases found with
  | none =>
    cases ran
    obtain rfl := eq_of_accept?_none accepted
    obtain ⟨ts, passed, derived, fits⟩ := equality _ _ _ tested quiet
    exact ⟨ts, passed, .unconditional derived, fits⟩
  | some question =>
    obtain ⟨onTrue, s₃, left, ran⟩ := ok_of_bind ran
    obtain ⟨colon, s₄, expected, ran⟩ := ok_of_bind ran
    obtain ⟨onFalse, s₅, right, ran⟩ := ok_of_bind ran
    cases ran
    obtain ⟨vs, last, below, fits₃⟩ := ternary _ _ _ right quiet
    obtain ⟨choose, third⟩ := passed_of_expect expected last.quiet
    obtain ⟨us, second, middle, fits₂⟩ := expression _ _ _ left third.quiet
    obtain ⟨ask, taken⟩ := passed_of_accept? accepted second.quiet
    obtain ⟨ts, first, above, fits₁⟩ := equality _ _ _ tested taken.quiet
    refine ⟨ts ++ question :: (us ++ colon :: vs), ?_,
      .conditional above (by simpa using ask) middle choose below, fun bounded => ?_⟩
    · simpa using (((first.trans taken).trans second).trans third).trans last
    · simp only [third.nesting, second.nesting, taken.nesting, first.nesting] at fits₂ fits₃
      have upper := fits₁ bounded
      have inner := fits₂ bounded
      have lower := fits₃ bounded
      simp only [entry, Expr.nesting] at upper inner lower ⊢
      omega

private theorem sound_unary {limit depth : Nat} (unary : Sound limit (rule limit depth .unary) .unary)
    (primary : Sound limit (rule limit depth .primary) .primary) :
    Sound limit (rule limit (depth + 1) .unary) .unary := by
  intro s e s' ran quiet
  obtain ⟨found, s₁, taken, ran⟩ := ok_of_bind ran
  have accepted : accept? isUnaryOperator s = .ok found s₁ := take?_of_takeAt? taken
  cases found with
  | none =>
    obtain ⟨ts, passed, derived, fits⟩ := primary _ _ _ ran quiet
    obtain rfl := eq_of_accept?_none accepted
    exact ⟨ts, passed, .plain derived, fits⟩
  | some operator =>
    obtain ⟨right, s₂, operated, ran⟩ := ok_of_bind ran
    cases ran
    obtain ⟨ts, passed, derived, fits⟩ := unary _ _ _ operated quiet
    obtain ⟨sign, taken⟩ := passed_of_accept? accepted passed.quiet
    refine ⟨operator :: ts, taken.trans passed, .unary ?_ derived, ?_⟩
    · cases kind : operator.kind <;> simp_all [isUnaryOperator]
    · rw [taken.nesting] at fits
      exact fits

private theorem constant_of_opening? {t : Token} {value : Value}
    (opens : opening? t = some (.constant value)) : Derives .primary [t] (.literal value) := by
  unfold opening? at opens
  split at opens
  · rename_i kind; cases opens; exact .constant (by rw [kind]; exact .falseWord)
  · rename_i kind; cases opens; exact .constant (by rw [kind]; exact .trueWord)
  · rename_i kind; cases opens; exact .constant (by rw [kind]; exact .nilWord)
  · rename_i kind; cases opens; exact .read (.inl kind)
  · rename_i kind; cases opens; exact .read (.inr kind)
  · cases opens
  · cases opens
  · simp at opens

theorem name_of_opening? {t name : Token} (opens : opening? t = some (.name name)) :
    name = t ∧ t.kind = .identifier := by
  unfold opening? at opens
  split at opens <;> simp_all

private theorem kind_of_opening?_group {t : Token} (opens : opening? t = some .group) :
    t.kind = .leftParen := by
  unfold opening? at opens
  split at opens <;> simp_all

private theorem sound_primary {limit depth : Nat}
    (every : ∀ r, Sound limit (rule limit depth r) r) :
    Sound limit (rule limit (depth + 1) .primary) .primary := by
  intro s e s' ran quiet
  obtain ⟨found, s₁, tookAt, ran⟩ := ok_of_bind ran
  have taken := take?_of_takeAt? tookAt
  cases found with
  | none => cases ran
  | some opening =>
    cases opening with
    | constant value =>
      cases ran
      obtain ⟨t, opens, passed⟩ := passed_of_take? taken quiet
      exact ⟨[t], passed, constant_of_opening? opens, fun bounded => bounded⟩
    | name token =>
      cases ran
      obtain ⟨t, opens, passed⟩ := passed_of_take? taken quiet
      obtain ⟨rfl, sort⟩ := name_of_opening? opens
      exact ⟨[token], passed, .name sort, fun bounded => bounded⟩
    | group =>
      obtain ⟨inner, s₂, inside, ran⟩ := ok_of_bind ran
      obtain ⟨closing, s₃, expected, ran⟩ := ok_of_bind ran
      cases ran
      obtain ⟨closed, last⟩ := passed_of_expect expected quiet
      obtain ⟨ts, passed, derived, fits⟩ := every .expression _ _ _ inside last.quiet
      obtain ⟨t, opens, first⟩ := passed_of_take? taken passed.quiet
      refine ⟨t :: (ts ++ [closing]), ?_,
        .grouping (kind_of_opening?_group opens) derived closed, fun bounded => ?_⟩
      · simpa using (first.trans passed).trans last
      · rw [first.nesting] at fits
        exact fits bounded
    | operator token operand =>
      -- an operator without a left operand leaves a report
      obtain ⟨_, s₂, reported, ran⟩ := ok_of_bind ran
      cases reported
      obtain ⟨_, passed, _⟩ := every operand _ _ _ ran quiet
      cases passed.quiet

theorem sound_rule (limit depth : Nat) (r : Rule) : Sound limit (rule limit depth r) r := by
  induction depth generalizing r with
  | zero => intro s e s' ran; cases ran
  | succ depth ih =>
    cases r with
    | expression => exact sound_expression (ih _)
    | comma => exact sound_chain .comma (ih _)
    | assignment => exact sound_assignment (ih _) (ih _)
    | ternary => exact sound_ternary (ih _) (ih _) (ih _)
    | equality => exact sound_chain .equality (ih _)
    | comparison => exact sound_chain .comparison (ih _)
    | term => exact sound_chain .term (ih _)
    | factor => exact sound_chain .factor (ih _)
    | unary => exact sound_unary (ih _) (ih _)
    | primary => exact sound_primary ih

theorem Declares.ne_nil {ts : List Token} {statement : Stmt} (declared : Declares ts statement) :
    ts ≠ [] := by
  cases declared <;> simp

def SoundStatement (limits : Limits) (depth : Nat) : Prop :=
  ∀ s made s', statement limits depth s = .ok made s' → s'.reports = [] →
    ∃ ts, Passed s ts s' ∧ Declares ts made ∧
      (s.nesting ≤ limits.nesting → s.nesting + made.nesting ≤ limits.nesting)

private theorem declarations_sound {limits : Limits} {depth : Nat} {ends : State → Bool}
    (each : SoundStatement limits depth) (bound : List Token) (s : State) (found : List Stmt)
    (s' : State)
    (ran : declarations (recovered (statement limits depth)) ends bound s = (found, s'))
    (quiet : s'.reports = []) :
    ∃ ts, Passed s ts s' ∧ Program ts found ∧
      (s.nesting ≤ limits.nesting → s.nesting + Stmt.bodyNesting found ≤ limits.nesting) ∧
      (s.rest.length ≤ bound.length → s'.rest = [] ∨ ends s' = true) := by
  induction bound generalizing s found with
  | nil =>
    cases ran
    refine ⟨[], .refl quiet, .nil, id, fun short => .inl ?_⟩
    exact List.eq_nil_of_length_eq_zero (Nat.le_zero.1 short)
  | cons _ bound ih =>
    unfold declarations at ran
    split at ran
    · rename_i ended
      cases ran
      exact ⟨[], .refl quiet, .nil, id, fun _ => .inr ended⟩
    · rcases first : recovered (statement limits depth) s with ⟨made, middle⟩
      rcases rest : declarations (recovered (statement limits depth)) ends bound middle
        with ⟨more, after⟩
      simp only [first, rest] at ran
      cases ran
      obtain ⟨us, second, program, inside, stops⟩ := ih _ _ rest
      obtain ⟨statement, rfl, succeeded⟩ :=
        ok_of_recovered (complains.statement limits depth) first second.quiet
      obtain ⟨ts, passed, declared, fits⟩ := each _ _ _ succeeded second.quiet
      refine ⟨ts ++ us, passed.trans second, .cons declared program, fun bounded => ?_,
        fun short => stops ?_⟩
      · rw [passed.nesting] at inside
        have head := fits bounded
        have tail := inside bounded
        simp only [Option.toList_some, List.singleton_append, Stmt.bodyNesting]
        omega
      · have some_token := List.length_pos_iff.2 declared.ne_nil
        have whole := passed.length
        simp only [List.length_cons] at short
        omega

private theorem sound_ended {limits : Limits} {depth : Nat} {fault : Fault} {make : Expr → Stmt}
    {s s' : State} {made : Stmt}
    (ran : (rule limits.nesting depth .expression >>= fun value =>
      expect .semicolon fault >>= fun _ => pure (make value)) s = .ok made s')
    (quiet : s'.reports = []) :
    ∃ value ts finish, made = make value ∧ Passed s (ts ++ [finish]) s' ∧
      Derives .expression ts value ∧ finish.kind = .semicolon ∧
      (s.nesting ≤ limits.nesting → s.nesting + (value.nesting + 1) ≤ limits.nesting) := by
  obtain ⟨value, s₁, valued, ran⟩ := ok_of_bind ran
  obtain ⟨finish, s₂, expected, ran⟩ := ok_of_bind ran
  cases ran
  obtain ⟨ended, last⟩ := passed_of_expect expected quiet
  obtain ⟨ts, passed, derived, fits⟩ := sound_rule _ _ _ _ _ _ valued last.quiet
  exact ⟨value, ts, finish, rfl, passed.trans last, derived, ended, fits⟩

private theorem sound_initializer {limits : Limits} {depth : Nat} {s s' : State} {value : Option Expr}
    (ran : initializer limits depth s = .ok value s') (quiet : s'.reports = []) :
    (value = none ∧ Passed s [] s') ∨
      ∃ e equals ts, value = some e ∧ equals.kind = .equal ∧ Passed s (equals :: ts) s' ∧
        Derives .expression ts e ∧
        (s.nesting ≤ limits.nesting → s.nesting + (e.nesting + 1) ≤ limits.nesting) := by
  obtain ⟨found, s₁, accepted, ran⟩ := ok_of_bind ran
  cases found with
  | none =>
    cases ran
    obtain rfl := eq_of_accept?_none accepted
    exact .inl ⟨rfl, .refl quiet⟩
  | some equals =>
    obtain ⟨e, s₂, valued, ran⟩ := ok_of_bind ran
    cases ran
    obtain ⟨ts, passed, derived, fits⟩ := sound_rule _ _ _ _ _ _ valued quiet
    obtain ⟨sign, taken⟩ := passed_of_accept? accepted passed.quiet
    rw [taken.nesting] at fits
    exact .inr ⟨e, equals, ts, rfl, by simpa using sign, taken.trans passed, derived, fits⟩

private theorem leader?_kind {t : Token} {leader : Leader} (leads : leader? t = some leader) :
    match leader with
    | .declaration => t.kind = .varWord
    | .output => t.kind = .printWord
    | .block => t.kind = .leftBrace := by
  unfold leader? at leads
  split at leads <;> cases leads <;> assumption

private theorem sound_variable {limits : Limits} {depth : Nat} {s s' : State} {made : Stmt}
    (ran : (expect .identifier .expectedName >>= fun name =>
      initializer limits depth >>= fun value =>
      expect .semicolon .semicolonAfterDeclaration >>= fun _ =>
        pure (.declare name value)) s = .ok made s')
    (quiet : s'.reports = []) :
    ∃ ts, Passed s ts s' ∧ (∀ var : Token, var.kind = .varWord → Declares (var :: ts) made) ∧
      (s.nesting ≤ limits.nesting → s.nesting + made.nesting ≤ limits.nesting) := by
  obtain ⟨name, s₁, named, ran⟩ := ok_of_bind ran
  obtain ⟨value, s₂, valued, ran⟩ := ok_of_bind ran
  obtain ⟨finish, s₃, expected, ran⟩ := ok_of_bind ran
  cases ran
  obtain ⟨ended, last⟩ := passed_of_expect expected quiet
  rcases sound_initializer valued last.quiet with
    ⟨rfl, nothing⟩ | ⟨e, equals, ts, rfl, sign, passed, derived, fits⟩
  · obtain ⟨sort, first⟩ := passed_of_expect named nothing.quiet
    exact ⟨_, (first.trans nothing).trans last, fun var word => .bare word sort ended, id⟩
  · obtain ⟨sort, first⟩ := passed_of_expect named passed.quiet
    rw [first.nesting] at fits
    exact ⟨_, (first.trans passed).trans last,
      fun var word => .initialized word sort sign derived ended, fits⟩

private theorem sound_block {limits : Limits} {depth : Nat} (each : SoundStatement limits depth)
    {s s' : State} {made : Stmt}
    (ran : (nested limits.nesting (inBlock (body (recovered (statement limits depth)))) >>=
      fun statements => expect .rightBrace .braceAfterBlock >>= fun _ =>
        pure (.block statements)) s = .ok made s')
    (quiet : s'.reports = []) :
    ∃ ts, Passed s ts s' ∧
      (∀ opening : Token, opening.kind = .leftBrace → Declares (opening :: ts) made) ∧
      s.nesting + made.nesting ≤ limits.nesting := by
  obtain ⟨statements, s₁, inside, ran⟩ := ok_of_bind ran
  obtain ⟨closing, s₂, expected, ran⟩ := ok_of_bind ran
  cases ran
  obtain ⟨closed, last⟩ := passed_of_expect expected quiet
  obtain ⟨room, after, bracketed, rfl⟩ := ok_of_nested inside
  obtain ⟨after, looped, rfl⟩ := ok_of_inBlock bracketed
  obtain ⟨ts, passed, program, fits, _⟩ :=
    declarations_sound each _ _ _ _ (ok_of_body looped) last.quiet
  refine ⟨ts ++ [closing], (passed_of_deeper (passed_of_inner passed)).trans last,
    fun opening opened => .block opened program closed, ?_⟩
  have deep := fits room
  simp only [State.inner, State.deeper, Stmt.nesting] at deep ⊢
  omega

private theorem sound_statement (limits : Limits) (depth : Nat) : SoundStatement limits depth := by
  induction depth with
  | zero => intro s made s' ran; cases ran
  | succ depth ih =>
    intro s made s' ran quiet
    obtain ⟨found, s₁, taken, ran⟩ := ok_of_bind ran
    cases found with
    | none =>
      obtain ⟨value, ts, finish, rfl, passed, derived, ended, fits⟩ := sound_ended ran quiet
      obtain rfl := eq_of_take?_none taken
      exact ⟨ts ++ [finish], passed, .expression derived ended, fits⟩
    | some leader =>
      cases leader with
      | declaration =>
        obtain ⟨ts, passed, declared, fits⟩ := sound_variable ran quiet
        obtain ⟨t, leads, first⟩ := passed_of_take? taken passed.quiet
        rw [first.nesting] at fits
        exact ⟨t :: ts, first.trans passed, declared t (leader?_kind leads), fits⟩
      | output =>
        obtain ⟨value, ts, finish, rfl, passed, derived, ended, fits⟩ := sound_ended ran quiet
        obtain ⟨t, leads, first⟩ := passed_of_take? taken passed.quiet
        rw [first.nesting] at fits
        exact ⟨t :: (ts ++ [finish]), first.trans passed,
          .print (leader?_kind leads) derived ended, fits⟩
      | block =>
        obtain ⟨ts, passed, declared, fits⟩ := sound_block ih ran quiet
        obtain ⟨t, leads, first⟩ := passed_of_take? taken passed.quiet
        rw [first.nesting] at fits
        exact ⟨t :: ts, first.trans passed, declared t (leader?_kind leads), fun _ => fits⟩

/-- A program without faults is derived by the grammar within the limit. -/
theorem program_sound {limits : Limits} {tokens : List Token} {found : List Stmt}
    (valid : program limits tokens = ⟨found, []⟩) :
    Program (tokens.takeWhile (·.kind != .eof)) found ∧
      Stmt.bodyNesting found ≤ limits.nesting := by
  rcases ran : statements limits (State.start tokens) with ⟨made, s'⟩
  simp only [program, ran, Parsed.mk.injEq, List.reverse_eq_nil_iff] at valid
  obtain ⟨rfl, quiet⟩ := valid
  obtain ⟨ts, passed, derived, fits, stops⟩ :=
    declarations_sound (sound_statement limits limits.depth) _ _ _ _ ran quiet
  have nothing_left : s'.rest = [] := by
    rcases stops (Nat.le_refl _) with done | done
    · exact done
    · simpa [atEnd] using done
  have whole := passed.split
  rw [nothing_left, List.append_nil, start_rest passed.quiet] at whole
  rw [whole]
  exact ⟨derived, by simpa [State.start, settled] using fits (Nat.zero_le _)⟩

end Scriptlet.Grammar
