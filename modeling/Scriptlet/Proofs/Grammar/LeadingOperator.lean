import Scriptlet.Proofs.Grammar.Single

/-! A binary operator in front of an expression. The tightest rule takes it, reports it and
reads what follows by the rule of the operator's right operand. From there the result goes up:
the rules that bind tighter than the operator find nothing to go on with, as that operand has
taken it all, and each looser rule goes on with it as with the operand that it is without the
operator. So the tree is the same, at the cost of one report. -/
namespace Scriptlet.Grammar
open Parse Parse.State

def binaryOnly : List Kind :=
  [.equalEqual, .bangEqual, .greater, .greaterEqual, .less, .lessEqual, .plus, .star, .slash,
    .comma]

/-- What the parser makes of such an operator where an expression should start. -/
structure Leading (operator : Token) (operand : Rule) : Prop where
  reads : operandRule? operator.kind = some operand
  binary : isUnaryOperator operator.kind = false
  usable : operator.kind ≠ .error
  inside : operator.kind ≠ .eof
  unled : leader? operator = none
  above : 1 ≤ rank operand
  below : rank operand ≤ 7

private theorem leading_of_binaryOnly {operator : Token} (sort : operator.kind ∈ binaryOnly) :
    ∃ operand, Leading operator operand := by
  simp only [binaryOnly, List.mem_cons, List.not_mem_nil, or_false] at sort
  rcases sort with sort | sort | sort | sort | sort | sort | sort | sort | sort | sort <;>
    exact ⟨_, by rw [sort]; rfl, by rw [sort]; rfl, by rw [sort]; decide, by rw [sort]; decide,
      by rw [leader?, sort], by decide, by decide⟩

private theorem opening?_of_operand {t : Token} {operand : Rule}
    (found : operandRule? t.kind = some operand) : opening? t = some (.operator t operand) := by
  unfold opening?
  split <;> simp_all [operandRule?]

abbrev missing (operator : Token) : List Diagnostic := [.atToken operator .missingLeftOperand]

section Rules
variable {limit : Nat} {operator : Token} {o r : Rule} {ts : List Token} {e : Expr}

private theorem settles_reported (leading : Leading operator o) (derived : Derives o ts e) (depth : Nat) :
    SettlesWith (missing operator) (Fits limit o e) (rule limit (depth + 1) .primary)
      (operator :: ts) e := by
  have taken : ∀ (s : State) (rest : List Token),
      rule limit (depth + 1) .primary (s.facing ([operator] ++ ts ++ rest)) =
        rule limit depth o ((reporting (missing operator) s).facing (ts ++ rest)) := by
    intro s rest
    obtain ⟨t, more, rfl, opens, _⟩ := head_of_derives derived
    have behind : (s.facing (t :: more ++ rest)).report operator .missingLeftOperand =
        (reporting (missing operator) s).facing (t :: more ++ rest) := by
      rw [List.cons_append, facing_cons _ (usable_of_opens opens),
        facing_cons _ (usable_of_opens opens)]
      rfl
    rw [← behind]
    exact bind_of_ok (takeAt?_facing leading.usable (opening?_of_operand leading.reads) s
      (clear_cons (usable_of_opens opens) _))
  exact Settles.behind (settles_rule derived depth) taken fun _ _ fits => fits

/-- A chain goes no further where its first operand has been read by a looser rule. -/
private theorem settles_unlinked {operand : Rule} {isOperator : Kind → Bool}
    {build : Expr → Token → Expr → Expr} {faults : List Diagnostic} {depth : Nat}
    (level : Chained r operand isOperator build) (below : rank r ≤ rank o)
    (whole : SettlesWith faults (Fits limit o e) (rule limit depth operand) ts e) :
    SettlesWith faults (Fits limit o e) (rule limit (depth + 1) r) ts e := by
  have last : Settles (Fits limit o e)
      (get >>= fun s => extend (rule limit depth operand) isOperator build s.rest e) [] e := by
    refine .inl fun s rest fits => ?_
    have refused := level.refuses (fits.2.tighter below)
    change extend _ isOperator build (s.facing rest).rest e (s.facing rest) = _
    cases (s.facing rest).rest with
    | nil => rfl
    | cons t bound => exact bind_of_ok (accept?_refused refused)
  rw [level.rule_eq, ← List.append_nil ts]
  exact SettlesWith.bind (Q := Fits limit o e) whole last (fun _ _ fits => fits)
    fun _ _ fits => fits

/-- A rule that binds as tightly as the right operand, or tighter, returns it. -/
private theorem settles_tight (leading : Leading operator o) (derived : Derives o ts e)
    (below : rank r ≤ rank o) (depth : Nat) :
    SettlesWith (missing operator) (Fits limit o e) (rule limit depth r) (operator :: ts) e := by
  have upper := leading.below
  induction step : rank r generalizing r depth with
  | zero =>
    obtain rfl : r = .primary := eq_of_rank step
    exact settles_of_succ (settles_reported leading derived) depth
  | succ n ih =>
    refine settles_of_succ (fun depth => ?_) depth
    have lower := rank_tighter r
    have inner := ih (r := tighter r) (by omega) depth (by omega)
    cases r with
    | primary => cases step
    | unary => exact settles_unsigned leading.usable leading.binary inner
    | factor => exact settles_unlinked .factor below inner
    | term => exact settles_unlinked .term below inner
    | comparison => exact settles_unlinked .comparison below inner
    | equality => exact settles_unlinked .equality below inner
    | ternary | assignment =>
      refine inner.unextended rfl (fun s rest fits t next => ?_) (fun _ _ fits => fits)
        fun _ _ fits => fits
      exact refuses_of_closes rfl (fits.2.tighter below) next
    | comma | expression => exact absurd (Nat.le_trans below upper) (by decide)

private theorem settles_same (leading : Leading operator o) (derived : Derives r ts e)
    (here : rank o = rank r) (depth : Nat) :
    SettlesWith (missing operator) (Fits limit r e) (rule limit depth r) (operator :: ts) e := by
  obtain rfl := eq_of_rank here
  exact settles_tight leading derived (Nat.le_refl _) depth

/-- A rule that is no tighter than the right operand goes on as without the operator. The
induction is on the derivation: its first part is derived by a tighter rule, down to the one of
the operand, and the parts after it have no operator before them. -/
private theorem settles_leading (leading : Leading operator o) (derived : Derives r ts e)
    (looser : rank o ≤ rank r) (depth : Nat) :
    SettlesWith (missing operator) (Fits limit r e) (rule limit depth r) (operator :: ts) e := by
  have lower := leading.above
  have upper := leading.below
  induction derived generalizing depth with
  | expression _ ih =>
    have comma : rank o ≤ rank .comma := Nat.le_trans upper (by decide)
    exact settles_of_succ (fun depth => settles_expression (ih comma depth)) depth
  | chain level head operators operands ih _ =>
    rcases Nat.eq_or_lt_of_le looser with here | above
    · exact settles_same leading (.chain level head operators operands) here depth
    · rw [level.rank_eq] at above
      exact settles_of_succ (fun depth => settles_chain level operators
        (ih (Nat.le_of_lt_succ above) depth)
        fun link member => settles_rule (operands link member) depth) depth
  | unassigned whole ih =>
    rcases Nat.eq_or_lt_of_le looser with here | above
    · exact settles_same leading (.unassigned whole) here depth
    · exact settles_of_succ (fun depth =>
        settles_unassigned (ih (Nat.le_of_lt_succ above) depth)) depth
  | assign target sign source ih _ =>
    rcases Nat.eq_or_lt_of_le looser with here | above
    · exact settles_same leading (.assign target sign source) here depth
    · exact settles_of_succ (fun depth => settles_assign sign
        (ih (Nat.le_of_lt_succ above) depth) (settles_rule source depth)) depth
  | unconditional whole ih =>
    rcases Nat.eq_or_lt_of_le looser with here | above
    · exact settles_same leading (.unconditional whole) here depth
    · exact settles_of_succ (fun depth =>
        settles_unconditional (ih (Nat.le_of_lt_succ above) depth)) depth
  | conditional condition ask onTrue choose onFalse ih _ _ =>
    rcases Nat.eq_or_lt_of_le looser with here | above
    · exact settles_same leading (.conditional condition ask onTrue choose onFalse) here depth
    · exact settles_of_succ (fun depth => settles_conditional ask choose
        (ih (Nat.le_of_lt_succ above) depth) (settles_rule onTrue depth)
        (settles_rule onFalse depth)) depth
  | plain whole =>
    exact settles_same leading (.plain whole) (Nat.le_antisymm looser lower) depth
  | unary sign right =>
    exact settles_same leading (.unary sign right) (Nat.le_antisymm looser lower) depth
  | constant | read | name | grouping => exact absurd (Nat.le_trans lower looser) (by decide)

end Rules

/-- An expression that is parsed without faults makes the same statement with such an operator
before it, at the cost of one report, which is that of the missing operand. It does so by
itself, behind the word that prints it and as the value of a declaration. -/
theorem program_leading {limits : Limits} {ts : List Token} {e : Expr}
    {operator semicolon finish : Token} (inside : ∀ t ∈ ts, t.kind ≠ .eof)
    (ended : semicolon.kind = .semicolon) (final : finish.kind = .eof)
    (valid : program limits (ts ++ [semicolon, finish]) = ⟨[.expression e], []⟩)
    (sort : operator.kind ∈ binaryOnly) {before : List Token} {make : Expr → Stmt}
    (lead : Lead before make)
    (shallow : ∀ d ∈ (program limits
      (before ++ (operator :: (ts ++ [semicolon, finish])))).diagnostics, d.fault ≠ .tooDeep) :
    program limits (before ++ (ts ++ [semicolon, finish])) = ⟨[make e], []⟩ ∧
      program limits (before ++ (operator :: (ts ++ [semicolon, finish]))) =
        ⟨[make e], [.atToken operator .missingLeftOperand]⟩ := by
  obtain ⟨o, leading⟩ := leading_of_binaryOnly sort
  obtain ⟨derived, room⟩ := Lead.alone.sound inside ended final valid
  have reads := reads_of_valid .alone inside ended final valid
  refine ⟨reads.program_eq inside ended final (unled_of_derives derived _) room lead, ?_⟩
  have inside' : ∀ t ∈ operator :: ts, t.kind ≠ .eof :=
    List.forall_mem_cons.2 ⟨leading.inside, inside⟩
  have unled : Unled (operator :: ts ++ [semicolon]) :=
    forall_upcoming leading.usable leading.unled _
  have settles : ∀ depth, SettlesWith (missing operator) (Fits limits.nesting .expression e)
      (rule limits.nesting depth .expression) (operator :: ts) e :=
    settles_leading leading derived (Nat.le_trans leading.below (by decide))
  rcases readsWith_or_deep inside' ended final unled room settles with recovers | deep
  · exact recovers.program_eq inside' ended final unled room lead
  · obtain ⟨d, member, fault⟩ := deep before make lead
    exact absurd fault (shallow d member)

/-- A product as a factor: the star takes one factor, and the tree is the product still. -/
theorem program_leading_star :
    let ts : List Token := [.plain .nilWord 1, .plain .star 1, .plain .trueWord 1]
    let e : Expr := .binary (.literal .nil) (.plain .star 1) (.literal (.truth true))
    program .standard (.plain .printWord 1 :: .plain .star 2 ::
        (ts ++ [.plain .semicolon 2, .eof 2])) =
      ⟨[.print e], [.atToken (.plain .star 2) .missingLeftOperand]⟩ := by
  intro ts e
  have word : (Token.plain .printWord 1).kind = .printWord := rfl
  exact (@program_leading .standard ts e (.plain .star 2) (.plain .semicolon 2) (.eof 2)
    (by decide) rfl rfl (by decide +kernel) (by decide) _ _ (.print word) (by decide +kernel)).2

end Scriptlet.Grammar
