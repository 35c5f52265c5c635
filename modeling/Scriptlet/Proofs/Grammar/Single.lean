import Mathlib.Data.List.TakeWhile
import Scriptlet.Proofs.Grammar.Program
import Scriptlet.Proofs.Parse.Progress

/-! Programs of a single statement with an expression up to its semicolon. Whatever stands
before the expression, it is read by the same rule with the same levels of recursion, so what
is known of a run of that rule gives the whole parse, and a valid parse gives the derivation of
the expression. The expression is then read in every such statement, or in none of them. -/
namespace Scriptlet.Grammar
open Parse Parse.State

section Programs
variable {limits : Limits} {tokens : List Token} {made : Stmt} {found : Option Stmt} {s' : State}

theorem program_of_declaration (some_token : (State.start tokens).atEnd = false)
    (first : declaration limits (State.start tokens) = (found, s')) (ended : s'.atEnd = true) :
    program limits tokens = ⟨found.toList, s'.reports.reverse⟩ := by
  have round := allDeclarations_next (progresses_declaration limits)
    (rfl : (State.start tokens).blocks = 0) some_token
  rw [first, allDeclarations_ended ended, List.append_nil] at round
  have all : statements limits (State.start tokens) = (found.toList, s') := round
  unfold program
  rw [all]

private theorem program_of_statement (some_token : (State.start tokens).atEnd = false)
    (ran : statement limits limits.depth (State.start tokens) = .ok made (s'.facing [])) :
    program limits tokens = ⟨[made], s'.reports.reverse⟩ := by
  have first : declaration limits (State.start tokens) = (some made, s'.facing []) := by
    unfold declaration recovered
    rw [ran]
  exact program_of_declaration some_token first rfl

private theorem deep_of_statement (some_token : (State.start tokens).atEnd = false)
    (ran : statement limits limits.depth (State.start tokens) = .error .tooDeep s') :
    ∃ d ∈ (program limits tokens).diagnostics, d.fault = .tooDeep := by
  have deep : Deep (declaration limits (State.start tokens)).2 := deep_recovered (.inl ⟨s', ran⟩)
  have round := allDeclarations_next (progresses_declaration limits)
    (rfl : (State.start tokens).blocks = 0) some_token
  have later : Deep (allDeclarations (declaration limits) atEnd (State.start tokens)).2 := by
    rw [round]
    exact deep.later (law_reports.declarations
      (law_reports.recovered (law_reports.closed.statement limits limits.depth)) _ _ _)
  obtain ⟨d, member, fault⟩ := later
  exact ⟨d, List.mem_reverse.2 member, fault⟩

private theorem declares_of_program {ts : List Token} (program : Program ts [made]) : Declares ts made := by
  cases program with
  | cons first rest =>
    cases rest
    rwa [List.append_nil]

end Programs

section Leads
variable {limits : Limits} {before us : List Token} {make : Expr → Stmt} {semicolon finish : Token}
  {e : Expr} {s' : State}

theorem Lead.nesting (lead : Lead before make) (e : Expr) : (make e).nesting = e.nesting + 1 := by
  cases lead <;> rfl

private theorem Lead.ne_eof (lead : Lead before make) : ∀ t ∈ before, t.kind ≠ .eof := by
  intro t member
  cases lead with
  | alone => cases member
  | print word =>
    rw [List.mem_singleton.1 member, word]
    decide
  | value word sort sign =>
    simp only [List.mem_cons, List.not_mem_nil, or_false] at member
    rcases member with rfl | rfl | rfl <;> simp [word, sort, sign]

private theorem Lead.derives_of_declares (lead : Lead before make)
    (declared : Declares (before ++ (us ++ [semicolon])) (make e)) : Derives .expression us e := by
  generalize whole : before ++ (us ++ [semicolon]) = ts at declared
  cases lead with
  | alone =>
    cases declared with
    | @expression vs last _ source _ =>
      have same : us ++ [semicolon] = vs ++ [last] := whole
      rwa [(List.append_inj' same rfl).1]
  | print word =>
    cases declared with
    | @print _ vs last _ _ source _ =>
      have same : us ++ [semicolon] = vs ++ [last] := (List.cons.inj whole).2
      rwa [(List.append_inj' same rfl).1]
  | value word sort sign =>
    cases declared with
    | @initialized _ _ _ vs last _ _ _ _ source _ =>
      have same : us ++ [semicolon] = vs ++ [last] :=
        (List.cons.inj (List.cons.inj (List.cons.inj whole).2).2).2
      rwa [(List.append_inj' same rfl).1]

variable (lead : Lead before make) (inside : ∀ t ∈ us, t.kind ≠ .eof)
  (ended : semicolon.kind = .semicolon) (final : finish.kind = .eof)

include lead inside ended final

theorem Lead.takeWhile_eq :
    (before ++ (us ++ [semicolon, finish])).takeWhile (·.kind != .eof) =
      before ++ (us ++ [semicolon]) := by
  have shape : before ++ (us ++ [semicolon, finish]) =
      before ++ (us ++ [semicolon]) ++ [finish] := by simp
  rw [shape]
  refine takeWhile_finish (fun t member => ?_) final
  simp only [List.mem_append, List.mem_singleton] at member
  rcases member with first | middle | rfl
  · exact lead.ne_eof t first
  · exact inside t middle
  · rw [ended]
    decide

theorem Lead.start_eq :
    State.start (before ++ (us ++ [semicolon, finish])) =
      (idle (before ++ (us ++ [semicolon, finish]))).facing (before ++ (us ++ [semicolon])) := by
  rw [Grammar.start_eq, lead.takeWhile_eq inside ended final]

private theorem Lead.atEnd_start :
    (State.start (before ++ (us ++ [semicolon, finish]))).atEnd = false := by
  rw [lead.start_eq inside ended final]
  refine List.isEmpty_eq_false_iff.2 fun empty => ?_
  rw [facing_rest, List.dropWhile_eq_nil_iff] at empty
  have wrong := empty semicolon (by simp)
  simp [isLexicalError, ended] at wrong

theorem Lead.sound
    (valid : program limits (before ++ (us ++ [semicolon, finish])) = ⟨[make e], []⟩) :
    Derives .expression us e ∧ e.nesting + 1 ≤ limits.nesting := by
  obtain ⟨derived, room⟩ := program_sound valid
  rw [lead.takeWhile_eq inside ended final] at derived
  refine ⟨lead.derives_of_declares (declares_of_program derived), ?_⟩
  rw [← lead.nesting]
  exact Nat.le_trans (Nat.le_max_left _ _) room

section Runs
variable {depth : Nat} (deep : limits.depth = depth + 1) (unled : Unled (us ++ [semicolon]))

include deep unled

theorem Lead.program_of_rule
    (ran : rule limits.nesting depth .expression
        ((idle (before ++ (us ++ [semicolon, finish]))).facing (us ++ [semicolon])) =
      .ok e (s'.facing [semicolon])) :
    program limits (before ++ (us ++ [semicolon, finish])) = ⟨[make e], s'.reports.reverse⟩ := by
  obtain ⟨fault, starts⟩ := lead.statement_eq limits depth
  refine program_of_statement (lead.atEnd_start inside ended final) ?_
  rw [lead.start_eq inside ended final, deep, starts _ _ unled, upToSemicolon, bind_of_ok ran]
  exact bind_of_ok (expect_facing ended (by decide) fault s' [])

private theorem Lead.deep_of_rule
    (ran : rule limits.nesting depth .expression
        ((idle (before ++ (us ++ [semicolon, finish]))).facing (us ++ [semicolon])) =
      .error .tooDeep s') :
    ∃ d ∈ (program limits (before ++ (us ++ [semicolon, finish]))).diagnostics,
      d.fault = .tooDeep := by
  obtain ⟨fault, starts⟩ := lead.statement_eq limits depth
  have gives_up : statement limits limits.depth
      (State.start (before ++ (us ++ [semicolon, finish]))) = .error .tooDeep s' := by
    rw [lead.start_eq inside ended final, deep, starts _ _ unled, upToSemicolon]
    exact bind_of_error ran
  exact deep_of_statement (lead.atEnd_start inside ended final) gives_up

end Runs

end Leads

section Whole
variable {limits : Limits} {us : List Token} {semicolon finish : Token} {e : Expr}
  {faults : List Diagnostic}

/-- The expression of a statement is read, wherever there is room for it. -/
def ReadsWith (faults : List Diagnostic) (limits : Limits) (us : List Token) (e : Expr) : Prop :=
  ∃ depth, limits.depth = depth + 1 ∧
    ∀ s rest, Fits limits.nesting .expression e s rest →
      rule limits.nesting depth .expression (s.facing (us ++ rest)) =
        .ok e ((reporting faults s).facing rest)

variable (inside : ∀ t ∈ us, t.kind ≠ .eof) (ended : semicolon.kind = .semicolon)
  (final : finish.kind = .eof) (unled : Unled (us ++ [semicolon]))
  (room : e.nesting + 1 ≤ limits.nesting)

include ended room in
private theorem fits_idle (tokens : List Token) :
    Fits limits.nesting .expression e (idle tokens) [semicolon] :=
  fits_before (by simpa [idle] using room) ended []

include inside ended final unled room

/-- Whatever stands before the expression, it is read everywhere, or nowhere for want of levels
of recursion. -/
theorem readsWith_or_deep
    (settles : ∀ depth, SettlesWith faults (Fits limits.nesting .expression e)
      (rule limits.nesting depth .expression) us e) :
    ReadsWith faults limits us e ∨
      ∀ before make, Lead before make →
        ∃ d ∈ (program limits (before ++ (us ++ [semicolon, finish]))).diagnostics,
          d.fault = .tooDeep := by
  cases deep : limits.depth with
  | zero =>
    refine .inr fun before make lead => ?_
    have gives_up (s : State) : statement limits limits.depth s = .error .tooDeep s := by
      rw [deep]
      rfl
    exact deep_of_statement (lead.atEnd_start inside ended final) (gives_up _)
  | succ depth =>
    rcases settles depth with reads | exhausts
    · exact .inl ⟨depth, deep, reads⟩
    · obtain ⟨more, left, _, stops⟩ := exhausts
      exact .inr fun before make lead =>
        lead.deep_of_rule inside ended final deep unled (stops _ _ (fits_idle ended room _))

theorem ReadsWith.program_eq (reads : ReadsWith faults limits us e) {before : List Token}
    {make : Expr → Stmt} (lead : Lead before make) :
    program limits (before ++ (us ++ [semicolon, finish])) = ⟨[make e], faults.reverse⟩ := by
  obtain ⟨depth, deep, ran⟩ := reads
  have whole := lead.program_of_rule inside ended final deep unled
    (ran _ _ (fits_idle ended room _))
  rwa [reporting, idle, List.append_nil] at whole

end Whole

theorem reads_of_valid {limits : Limits} {before us : List Token} {make : Expr → Stmt}
    {semicolon finish : Token} {e : Expr} (lead : Lead before make)
    (inside : ∀ t ∈ us, t.kind ≠ .eof) (ended : semicolon.kind = .semicolon)
    (final : finish.kind = .eof)
    (valid : program limits (before ++ (us ++ [semicolon, finish])) = ⟨[make e], []⟩) :
    ReadsWith [] limits us e := by
  obtain ⟨derived, room⟩ := lead.sound inside ended final valid
  rcases readsWith_or_deep inside ended final (unled_of_derives derived _) room
    fun depth => (settles_rule derived depth).quiet with reads | deep
  · exact reads
  · obtain ⟨d, member, _⟩ := deep before make lead
    rw [valid] at member
    cases member

end Scriptlet.Grammar
