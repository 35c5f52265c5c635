import Scriptlet.Proofs.Parse.Horizon

/-! Where parsing goes on after a fault. In front of a semicolon a statement that
is no block either takes it or is abandoned before it, and the recovery then
passes it unless a word that opens a statement comes first. In front of the
brace that closes a block nothing takes or passes that brace. So the body of a
block is read up to its brace, as long as every block inside stands where a
statement may begin and the blocks are not nested too deep. -/
namespace Scriptlet.Parse
open State Grammar

/-- What a statement other than a block reads before its semicolon, once its
first word is known: the statement, and the fault where the semicolon is missing. -/
def clauseAfter (limits : Limits) (depth : Nat) : Option Leader → Parser (Fault × Stmt)
  | some .declaration => do
    let name ← expect .identifier .expectedName
    let value ← initializer limits depth
    return (.semicolonAfterDeclaration, .declare name value)
  | some .output => do
    let value ← rule limits.nesting depth .expression
    return (.semicolonAfterValue, .print value)
  | none | some .block => do
    let value ← rule limits.nesting depth .expression
    return (.semicolonAfterExpression, .expression value)

def clause (limits : Limits) : Nat → Parser (Fault × Stmt)
  | 0 => throw .tooDeep
  | depth + 1 => do clauseAfter limits depth (← take? leader?)

def finished (read : Fault × Stmt) : Parser Stmt := do
  let _ ← expect .semicolon read.1
  return read.2

theorem leader?_eq_block {t : Token} : leader? t = some .block ↔ t.kind = .leftBrace := by
  unfold leader?
  cases t.kind <;> simp

theorem statement_eq_clause (limits : Limits) (depth : Nat) {s : State}
    (no_block : s.sees .leftBrace = false) :
    statement limits depth s = (clause limits depth >>= finished) s := by
  cases depth with
  | zero => rfl
  | succ depth =>
    cases took : take? leader? s with
    | error abort middle =>
      rw [show (clause limits (depth + 1) >>= finished) s = _ from
        bind_of_error (bind_of_error took)]
      exact bind_of_error took
    | ok found middle =>
      have opened : (clause limits (depth + 1) >>= finished) s =
          (clauseAfter limits depth found >>= finished) middle := by
        unfold clause
        rw [bind_assoc]
        exact bind_of_ok took
      have whole : statement limits (depth + 1) s = _ := bind_of_ok took
      rw [opened, whole]
      cases found with
      | none => rw [clauseAfter, bind_assoc]; rfl
      | some leader =>
        cases leader with
        | declaration => simp only [clauseAfter, bind_assoc]; rfl
        | output => rw [clauseAfter, bind_assoc]; rfl
        | block =>
          -- the word of a block is its brace
          unfold take? at took
          split at took
          · cases took
          · rename_i t more upcoming
            split at took
            · cases took
            · rename_i leads
              cases took
              have brace := leader?_eq_block.1 leads
              simp [sees, upcoming, brace] at no_block

private theorem Closed.clause {P : ∀ {α : Type}, Parser α → Prop} (closed : Closed P) (limits : Limits)
    (depth : Nat) : P (Parse.clause limits depth) := by
  cases depth with
  | zero => exact closed.tooDeep
  | succ depth =>
    have value := closed.rule limits.nesting depth .expression
    refine closed.bind (closed.take? _) fun found => ?_
    cases found with
    | none => exact closed.bind value fun _ => closed.pure _
    | some leader =>
      cases leader with
      | declaration =>
        exact closed.bind (closed.expect _ _) fun _ =>
          closed.bind (closed.initializer _ _) fun _ => closed.pure _
      | output | block => exact closed.bind value fun _ => closed.pure _

private theorem keeps_clause (limits : Limits) (depth : Nat) : Keeps Follows (clause limits depth) :=
  law_follows.closed.clause limits depth

namespace Horizon
variable {h : Horizon} {s : State}

theorem local_clause (outside : h.Outside) (unled : h.Refuses leader?) (limits : Limits)
    (depth : Nat) : Local h (clause limits depth) := by
  cases depth with
  | zero => exact .tooDeep
  | succ depth =>
    refine .bind (.take? unled) fun found => ?_
    cases found with
    | none => exact .bind (local_rule outside _ _ _) fun _ => .pure _
    | some leader =>
      cases leader with
      | declaration =>
        exact .bind (.expect (outside.apart rfl) _) fun _ =>
          .bind (local_initializer outside _ _) fun _ => .pure _
      | output | block => exact .bind (local_rule outside _ _ _) fun _ => .pure _

theorem outside_of_next {stop : Token} (next : h.next = stop)
    (kind : inExpression stop.kind = false) :
    h.Outside := by
  intro t head
  rw [← next, Horizon.next, List.headD_eq_head?_getD, head] at kind
  exact kind

theorem head_of_next {stop : Token} (next : h.next = stop) :
    ∀ t, h.tokens.head? = some t → t = stop := by
  intro t head
  rw [← next, Horizon.next, List.headD_eq_head?_getD, head]
  rfl

theorem sees_place_absent {kind : Kind} {stop : Token} (next : h.next = stop)
    (other : stop.kind ≠ kind) (absent : ∀ t ∈ s.rest, t.kind ≠ kind) :
    s.sees kind = false ∧ (h.place s).sees kind = false := by
  have unseen : s.sees kind = false := by
    unfold sees
    split
    · rfl
    · rename_i t later upcoming
      exact beq_eq_false_iff_ne.2 (absent t (by simp [upcoming]))
  refine ⟨unseen, ?_⟩
  rwa [sees_place fun t head => by rwa [head_of_next next t head]]

section Semicolon

/-- The state behind the horizon, or before it where the stretch is not used up. -/
def leave (h : Horizon) (s : State) : State :=
  if s.rest.isEmpty then (h.place s).advanced else h.place s

variable {stop : Token} {more : List Token} (shape : h.tokens = stop :: more)
  (ended : stop.kind = .semicolon)
include shape ended

private theorem seek_semicolon {last : Token} (begun : last.kind ≠ .semicolon)
    (flat : ∀ t ∈ s.rest, t.kind ≠ .semicolon) :
    (h.place s).seek last = h.leave (s.seek last) := by
  fun_induction State.seek s last with
  | case1 s last empty =>
    have upcoming : (h.place s).rest = stop :: more := by rw [place, empty, shape]; rfl
    have inside : (h.place s).atBlockEnd = false := by simp [atBlockEnd, sees, upcoming, ended]
    have passed : ((h.place s).advanced).seek stop = (h.place s).advanced := by
      cases behind : (h.place s).advanced.rest with
      | nil => exact seek_nil behind
      | cons t later => rw [seek_cons behind, if_pos (.inl ended)]
    rw [seek_cons upcoming, if_neg (by simp [begun, ended, Kind.startsStatement, inside]), passed,
      leave, empty]
    rfl
  | case2 s last t later upcoming stops =>
    have placed_rest : (h.place s).rest = t :: (later ++ h.tokens) := by
      rw [place, upcoming, List.cons_append]
    rw [seek_cons placed_rest, atBlockEnd_place (by simp [upcoming]), if_pos stops, leave, upcoming]
    rfl
  | case3 s last t later upcoming go ih =>
    have placed_rest : (h.place s).rest = t :: (later ++ h.tokens) := by
      rw [place, upcoming, List.cons_append]
    rw [seek_cons placed_rest, atBlockEnd_place (by simp [upcoming]), if_neg go,
      place_advanced (by simp [upcoming])]
    refine ih (flat t (by simp [upcoming])) fun u member => ?_
    exact flat u ((follows_advanced s).rest.subset member)

/-- The recovery passes the semicolon unless it stops before it. -/
private theorem synchronized_semicolon (flat : ∀ t ∈ s.rest, t.kind ≠ .semicolon) :
    (h.place s).synchronized = h.leave s.synchronized := by
  unfold State.synchronized
  cases upcoming : s.rest with
  | nil =>
    have placed_rest : (h.place s).rest = stop :: more := by rw [place, upcoming, shape]; rfl
    have inside : (h.place s).atBlockEnd = false := by simp [atBlockEnd, sees, placed_rest, ended]
    rw [placed_rest]
    dsimp only
    rw [inside, if_neg Bool.false_ne_true, leave, upcoming]
    cases behind : (h.place s).advanced.rest with
    | nil => exact seek_nil behind
    | cons t later => rw [seek_cons behind, if_pos (.inl ended)]; rfl
  | cons t later =>
    have placed_rest : (h.place s).rest = t :: (later ++ h.tokens) := by
      rw [place, upcoming, List.cons_append]
    rw [placed_rest]
    dsimp only
    rw [atBlockEnd_place (by simp [upcoming])]
    split
    · rw [leave, upcoming]
      rfl
    · rw [place_advanced (by simp [upcoming])]
      refine seek_semicolon shape ended (flat t (by simp [upcoming])) fun u member => ?_
      exact flat u ((follows_advanced s).rest.subset member)

private theorem finished_semicolon (used_up : s.rest = []) (read : Fault × Stmt) :
    finished read (h.place s) = .ok read.2 (h.place s).advanced := by
  have upcoming : (h.place s).rest = stop :: more := by
    rw [place, used_up, shape]
    rfl
  have took : accept? (· == .semicolon) (h.place s) = .ok (some stop) (h.place s).advanced := by
    simp [accept?, take?, ifKind, upcoming, ended]
  unfold finished expect
  rw [bind_assoc, bind_of_ok took]
  rfl

end Semicolon

private theorem finished_refused {t : Token} {later : List Token} (upcoming : s.rest = t :: later)
    (other : t.kind ≠ .semicolon) (read : Fault × Stmt) :
    finished read (h.place s) =
      .error .reported ((h.place s).report (h.place s).next read.1) := by
  have refused : accept? (· == .semicolon) (h.place s) = .ok none (h.place s) := by
    simp [accept?, take?, ifKind, place, upcoming, other]
  unfold finished expect
  rw [bind_assoc, bind_of_ok refused]
  rfl

end Horizon

/-- A statement other than a block in a stretch of tokens before a semicolon. -/
def recoveredClause (limits : Limits) (depth : Nat) (s : State) : Option Stmt × State :=
  match clause limits depth s with
  | .ok read s =>
    if s.rest.isEmpty then (some read.2, s) else (none, (s.report s.next read.1).synchronized)
  | .error .reported s => (none, s.synchronized)
  | .error .tooDeep s => (none, (s.report s.next .tooDeep).synchronized)
  | .error .overrun s => (none, (s.stopped.report s.stopped.next .tooDeep).synchronized)

theorem Law.recoveredClause {R : State → State → Prop} (law : Law R) (limits : Limits)
    (depth : Nat) (s : State) : R s (Parse.recoveredClause limits depth s).2 := by
  have kept := law.closed.clause limits depth s
  have recovers : ∀ middle fault, R s middle → R s (middle.report middle.next fault).synchronized :=
    fun middle fault began =>
      law.trans (law.trans began (law.reportNext middle fault)) (law.synchronized _)
  unfold Parse.recoveredClause
  split
  · rename_i read middle ran
    rw [ran] at kept
    split
    · exact kept
    · exact recovers middle _ kept
  · rename_i middle ran
    rw [ran] at kept
    exact law.trans kept (law.synchronized middle)
  · rename_i middle ran
    rw [ran] at kept
    exact recovers middle _ kept
  · rename_i middle ran
    rw [ran] at kept
    exact law.trans kept (law.stopped middle)

theorem recovered_semicolon (limits : Limits) (depth : Nat) {s : State}
    (flat : ∀ t ∈ s.rest, t.kind ≠ .semicolon ∧ t.kind ≠ .leftBrace) {h : Horizon} {stop : Token}
    {more : List Token} (shape : h.tokens = stop :: more) (ended : stop.kind = .semicolon)
    (meets : s.finish = stop) :
    recovered (statement limits depth) (h.place s) =
      ((recoveredClause limits depth s).1, h.leave (recoveredClause limits depth s).2) := by
  have next : h.next = stop := by rw [Horizon.next, shape]; rfl
  have outside := Horizon.outside_of_next next (by rw [ended]; rfl)
  have unled : h.Refuses leader? := by
    intro t head
    rw [Horizon.head_of_next next t head]
    simp [leader?, ended]
  have no_block := (Horizon.sees_place_absent next (by rw [ended]; decide)
    fun t member => (flat t member).2).2
  have run := Horizon.local_clause outside unled limits depth s (meets.trans next.symm)
  have kept := keeps_clause limits depth s
  unfold recovered recoveredClause
  rw [statement_eq_clause limits depth no_block]
  cases ran : clause limits depth s with
  | error abort middle =>
    rw [ran] at run kept
    have met : middle.finish = h.next := run.2
    have clear : ∀ t ∈ middle.rest, t.kind ≠ .semicolon := fun t member =>
      (flat t (kept.rest.subset member)).1
    rw [bind_of_error run.1]
    cases abort with
    | reported => exact congrArg _ (Horizon.synchronized_semicolon shape ended clear)
    | tooDeep =>
      dsimp only
      rw [Horizon.next_place met, Horizon.place_report]
      exact congrArg _ (Horizon.synchronized_semicolon (s := middle.report _ _) shape ended clear)
    | overrun =>
      have shows := complains.clause limits depth _ _ _ ran
      have still : middle.stopped.finish = h.next := middle.stopped_frame.1.trans met
      dsimp only
      rw [Horizon.stopped_place shows, Horizon.next_place still, Horizon.place_report]
      refine congrArg _ (Horizon.synchronized_semicolon (s := middle.stopped.report _ _) shape ended
        fun t member => ?_)
      exact clear t ((follows_stopped middle).rest.subset member)
  | ok read middle =>
    rw [ran] at run kept
    have met : middle.finish = h.next := run.2
    rw [bind_of_ok run.1]
    cases upcoming : middle.rest with
    | nil =>
      rw [Horizon.finished_semicolon shape ended upcoming]
      simp [Horizon.leave, upcoming]
    | cons t later =>
      have among : t ∈ middle.rest := by
        rw [upcoming]
        exact List.mem_cons_self
      have other : t.kind ≠ .semicolon := (flat t (kept.rest.subset among)).1
      have going : ¬ middle.rest.isEmpty = true := by simp [upcoming]
      rw [Horizon.finished_refused upcoming other, Horizon.next_place met, Horizon.place_report]
      dsimp only
      rw [if_neg going]
      refine congrArg _ (Horizon.synchronized_semicolon (s := middle.report _ _) shape ended ?_)
      exact fun u member => (flat u (kept.rest.subset member)).1

section Unled
variable {s : State}

private theorem rest_seek {last : Token} (begun : last.kind ≠ .semicolon)
    (flat : ∀ t ∈ s.rest, t.kind ≠ .semicolon ∧ t.kind.startsStatement = false)
    (unclosed : ∀ t ∈ s.rest, t.kind = .rightBrace → s.blocks = 0) :
    (s.seek last).rest = [] := by
  fun_induction State.seek s last with
  | case1 s last empty => exact empty
  | case2 s last t later upcoming stops =>
    have here := flat t (by simp [upcoming])
    rcases stops with ended | starts | inside
    · exact absurd ended begun
    · rw [here.2] at starts
      cases starts
    · simp only [atBlockEnd, sees, upcoming, Bool.and_eq_true, bne_iff_ne, beq_iff_eq] at inside
      exact absurd (unclosed t (by simp [upcoming]) inside.2) inside.1
  | case3 s last t later upcoming go ih =>
    have among := (follows_advanced s).rest.subset
    exact ih (flat t (by simp [upcoming])).1 (fun u member => flat u (among member))
      fun u member => unclosed u (among member)

theorem rest_synchronized (flat : ∀ t ∈ s.rest, t.kind ≠ .semicolon)
    (unled : ∀ t ∈ s.rest.tail, t.kind.startsStatement = false)
    (unclosed : ∀ t ∈ s.rest, t.kind = .rightBrace → s.blocks = 0) :
    s.synchronized.rest = [] := by
  unfold State.synchronized
  split
  · assumption
  · rename_i t later upcoming
    have behind : s.advanced.rest <:+ s.rest.tail := List.dropWhile_suffix _
    have among := fun {u : Token} (member : u ∈ s.advanced.rest) =>
      (List.tail_suffix _).subset (behind.subset member)
    have going : ¬ s.atBlockEnd = true := by
      simp only [atBlockEnd, sees, upcoming, Bool.and_eq_true, bne_iff_ne, beq_iff_eq]
      rintro ⟨inside, brace⟩
      exact inside (unclosed t (by simp [upcoming]) brace)
    rw [if_neg going]
    exact rest_seek (flat t (by simp [upcoming]))
      (fun u member => ⟨flat u (among member), unled u (behind.subset member)⟩)
      fun u member => unclosed u (among member)

theorem tail_subset_of_suffix {ts us : List Token} (suffix : us <:+ ts) : us.tail ⊆ ts.tail := by
  obtain ⟨before, rfl⟩ := suffix
  cases before with
  | nil => exact fun _ member => member
  | cons t before =>
    exact fun u member => List.mem_append_right before ((List.tail_suffix us).subset member)

/-- A stretch in which only the first token may open a statement is used up. -/
theorem rest_recoveredClause (limits : Limits) (depth : Nat) (outside : s.blocks = 0)
    (flat : ∀ t ∈ s.rest, t.kind ≠ .semicolon)
    (unled : ∀ t ∈ s.rest.tail, t.kind.startsStatement = false) :
    (recoveredClause limits depth s).2.rest = [] := by
  have kept := keeps_clause limits depth s
  have recovers : ∀ middle : State, Follows s middle → middle.synchronized.rest = [] :=
    fun middle follows => rest_synchronized (fun t member => flat t (follows.rest.subset member))
      (fun t member => unled t (tail_subset_of_suffix follows.rest member))
      fun _ _ _ => follows.blocks.trans outside
  have reports : ∀ middle fault, Follows s middle → Follows s (middle.report middle.next fault) :=
    fun middle fault follows => law_follows.trans follows (law_follows.reportNext middle fault)
  unfold recoveredClause
  split
  · rename_i read middle ran
    rw [ran] at kept
    split
    · rename_i used_up
      exact List.isEmpty_iff.1 used_up
    · exact recovers _ (reports middle _ kept)
  · rename_i middle ran
    rw [ran] at kept
    exact recovers middle kept
  · rename_i middle ran
    rw [ran] at kept
    exact recovers _ (reports middle _ kept)
  · rename_i middle ran
    rw [ran] at kept
    exact recovers _ (reports middle.stopped _ (law_follows.trans kept (follows_stopped middle)))

end Unled

end Scriptlet.Parse
