import Scriptlet.Proofs.Parse.Renaming
import Scriptlet.Proofs.Parse.Rounds

/-! Where parsing goes on after a fault. The token at fault is passed, and then all tokens up
to the first boundary: the end, a place behind a semicolon, a word that opens a statement, or
a brace that closes an open block. Only at the end, and before such a brace, nothing is passed.
What is passed is reported where it is of kind error, and nothing else is; the open blocks and
the nesting stay as they are, and no brace that closes an open block is ever passed. -/
namespace Scriptlet.Parse
open State Grammar

namespace Cursor

/-- The state of a parse with its cursor at a place of a token list. -/
def state (tokens : List Token) (i : Nat) (reports : List Diagnostic) (nesting blocks : Nat) :
    State where
  rest := (tokens.drop i).takeWhile (·.kind != .eof)
  finish := ((tokens.drop i).find? (·.kind == .eof)).getD (Token.eof 1)
  reports := reports
  nesting := nesting
  blocks := blocks

def stretch (tokens : List Token) (i j : Nat) : List Token := (tokens.drop i).take (j - i)

structure Usable (tokens : List Token) (i : Nat) (t : Token) : Prop where
  here : tokens[i]? = some t
  kind : t.kind ≠ .error

/-- The next usable token: all between the two places are of kind error. -/
structure Next (tokens : List Token) (i j : Nat) : Prop where
  later : i < j
  usable : ∃ t, Usable tokens j t
  errors : ∀ k u, i < k → k < j → tokens[k]? = some u → u.kind = .error

/-- A usable token at which parsing may go on, with so many blocks open. -/
inductive Boundary (tokens : List Token) (blocks j : Nat) : Prop
  | finish {t : Token} : Usable tokens j t → t.kind = .eof → Boundary tokens blocks j
  | ended {i : Nat} {t : Token} : Next tokens i j → Usable tokens i t → t.kind = .semicolon →
      Boundary tokens blocks j
  | opened {t : Token} : Usable tokens j t → t.kind.startsStatement = true →
      Boundary tokens blocks j
  | closed {t : Token} : Usable tokens j t → t.kind = .rightBrace → blocks ≠ 0 →
      Boundary tokens blocks j

/-- A token that the recovery does not pass, with so many blocks open. -/
def Stays (blocks : Nat) (t : Token) : Prop :=
  t.kind = .eof ∨ (t.kind = .rightBrace ∧ blocks ≠ 0)

structure First (tokens : List Token) (blocks i j : Nat) : Prop where
  reached : i ≤ j
  boundary : Boundary tokens blocks j
  least : ∀ k, i ≤ k → k < j → ¬ Boundary tokens blocks k

section Places
variable {tokens : List Token} {i j k : Nat} {t u : Token} {blocks : Nat}

theorem Usable.unique (usable : Usable tokens i t) (usable' : Usable tokens i u) : t = u :=
  Option.some.inj (usable.here.symm.trans usable'.here)

theorem Boundary.usable (boundary : Boundary tokens blocks j) : ∃ t, Usable tokens j t := by
  cases boundary with
  | finish usable _ => exact ⟨_, usable⟩
  | ended next _ _ => exact next.usable
  | opened usable _ => exact ⟨_, usable⟩
  | closed usable _ _ => exact ⟨_, usable⟩

theorem Next.unique (next : Next tokens i k) (next' : Next tokens j k)
    (usable : Usable tokens i t) (usable' : Usable tokens j u) : i = j := by
  rcases Nat.lt_trichotomy i j with less | same | less
  · exact absurd (next.errors j u less next'.later usable'.here) usable'.kind
  · exact same
  · exact absurd (next'.errors i t less next.later usable.here) usable.kind

theorem boundary_iff (next : Next tokens i j) (passed : Usable tokens i u)
    (usable : Usable tokens j t) :
    Boundary tokens blocks j ↔ t.kind = .eof ∨ u.kind = .semicolon ∨
      t.kind.startsStatement = true ∨ (t.kind = .rightBrace ∧ blocks ≠ 0) := by
  constructor
  · intro boundary
    cases boundary with
    | finish usable' ended => exact .inl (usable.unique usable' ▸ ended)
    | ended next' passed' semicolon =>
      obtain rfl := next.unique next' passed passed'
      exact .inr (.inl (passed.unique passed' ▸ semicolon))
    | opened usable' starts => exact .inr (.inr (.inl (usable.unique usable' ▸ starts)))
    | closed usable' brace inside =>
      exact .inr (.inr (.inr ⟨usable.unique usable' ▸ brace, inside⟩))
  · rintro (ended | semicolon | starts | ⟨brace, inside⟩)
    · exact .finish usable ended
    · exact .ended next passed semicolon
    · exact .opened usable starts
    · exact .closed usable brace inside

theorem First.later (next : Next tokens i j) (first : First tokens blocks j k) :
    First tokens blocks (i + 1) k where
  reached := Nat.le_trans next.later first.reached
  boundary := first.boundary
  least l after before boundary := by
    rcases Nat.lt_or_ge l j with less | reached
    · obtain ⟨t, usable⟩ := boundary.usable
      exact usable.kind (next.errors l t after less usable.here)
    · exact first.least l reached before boundary

theorem First.ahead (next : Next tokens i j) (first : First tokens blocks j k)
    (inner : ¬ Boundary tokens blocks i) : First tokens blocks i k where
  reached := Nat.le_trans (Nat.le_of_lt next.later) first.reached
  boundary := first.boundary
  least l after before := by
    rcases Nat.eq_or_lt_of_le after with rfl | later
    · exact inner
    · exact (First.later next first).least l later before

private theorem drop_of_getElem? (here : tokens[i]? = some t) :
    tokens.drop i = t :: tokens.drop (i + 1) := by
  obtain ⟨inside, rfl⟩ := List.getElem?_eq_some_iff.1 here
  exact List.drop_eq_getElem_cons inside

private theorem stretch_self (tokens : List Token) (i : Nat) : stretch tokens i i = [] := by
  simp [stretch]

private theorem stretch_cons (here : tokens[i]? = some t) (later : i < j) :
    stretch tokens i j = t :: stretch tokens (i + 1) j := by
  unfold stretch
  rw [drop_of_getElem? here, show j - i = (j - (i + 1)) + 1 by omega, List.take_succ_cons]

private theorem stretch_append (first : i ≤ j) (later : j ≤ k) :
    stretch tokens i j ++ stretch tokens j k = stretch tokens i k := by
  unfold stretch
  rw [show k - i = (j - i) + (k - j) by omega, List.take_add, List.drop_drop,
    show i + (j - i) = j by omega]

private theorem lexicalReports_append (first more : List Token) :
    lexicalReports (first ++ more) = lexicalReports first ++ lexicalReports more := by
  simp [lexicalReports]

private theorem lexicalReports_cons (t : Token) (more : List Token) :
    lexicalReports (t :: more) =
      if t.kind = .error then .lexical t :: lexicalReports more else lexicalReports more := by
  by_cases error : t.kind = .error <;> simp [lexicalReports, error]

private theorem reports_append (first : i ≤ j) (later : j ≤ k) (reports : List Diagnostic) :
    (lexicalReports (stretch tokens j k)).reverse ++
        ((lexicalReports (stretch tokens i j)).reverse ++ reports) =
      (lexicalReports (stretch tokens i k)).reverse ++ reports := by
  rw [← stretch_append first later, lexicalReports_append, List.reverse_append,
    List.append_assoc]

end Places

section States
variable {tokens : List Token} {i j : Nat} {t : Token} (reports : List Diagnostic)
  (nesting blocks : Nat)

private theorem rest_state_eof (here : tokens[i]? = some t) (ended : t.kind = .eof) :
    (state tokens i reports nesting blocks).rest = [] := by
  simp [state, drop_of_getElem? here, ended]

private theorem state_of_ne_eof (here : tokens[i]? = some t) (going : t.kind ≠ .eof) :
    state tokens i reports nesting blocks =
      { state tokens (i + 1) reports nesting blocks with
        rest := t :: (state tokens (i + 1) reports nesting blocks).rest } := by
  simp [state, drop_of_getElem? here, going]

private theorem settled_error (here : tokens[i]? = some t) (error : t.kind = .error) :
    (state tokens i reports nesting blocks).settled =
      (state tokens (i + 1) (.lexical t :: reports) nesting blocks).settled := by
  rw [state_of_ne_eof reports nesting blocks here (by rw [error]; decide)]
  simp [State.settled, isLexicalError, error, state]

private theorem settled_usable (usable : Usable tokens i t) :
    (state tokens i reports nesting blocks).settled = state tokens i reports nesting blocks := by
  refine settled_eq_self fun u head => ?_
  by_cases ended : t.kind = .eof
  · rw [rest_state_eof reports nesting blocks usable.here ended] at head
    cases head
  · rw [state_of_ne_eof reports nesting blocks usable.here ended] at head
    cases head
    exact usable.kind

private theorem settled_state (found : skip? tokens i = some j) :
    (state tokens i reports nesting blocks).settled =
      state tokens j ((lexicalReports (stretch tokens i j)).reverse ++ reports) nesting blocks ∧
    i ≤ j ∧ (∃ t, Usable tokens j t) ∧
    ∀ k u, i ≤ k → k < j → tokens[k]? = some u → u.kind = .error := by
  fun_induction skip? tokens i generalizing reports with
  | case1 i nothing => cases found
  | case2 i t here error ih =>
    obtain ⟨same, reached, usable, errors⟩ := ih (.lexical t :: reports) found
    refine ⟨?_, by omega, usable, fun k u after before at_k => ?_⟩
    · rw [settled_error reports nesting blocks here error, same, stretch_cons here reached,
        lexicalReports_cons, if_pos error, List.reverse_cons, List.append_assoc]
      rfl
    · rcases Nat.eq_or_lt_of_le after with rfl | less
      · rw [← Option.some.inj (here.symm.trans at_k), error]
      · exact errors k u less before at_k
  | case3 i t here usable =>
    cases found
    refine ⟨?_, Nat.le_refl _, ⟨t, here, usable⟩, fun k u after before => ?_⟩
    · rw [settled_usable reports nesting blocks ⟨here, usable⟩, stretch_self]
      rfl
    · omega

/-- The tokens of a parse end with one of kind eof, so another one has a token behind it. -/
private theorem inside_of_ne_eof (complete : isComplete tokens = true) (here : tokens[i]? = some t)
    (going : t.kind ≠ .eof) : i + 1 < tokens.length := by
  have inside := (List.getElem?_eq_some_iff.1 here).1
  refine Nat.lt_of_le_of_ne inside fun last => going ?_
  unfold isComplete at complete
  rw [List.getLast?_eq_getElem?, show tokens.length - 1 = i by omega, here] at complete
  exact beq_iff_eq.1 complete

private theorem exists_skip? (complete : isComplete tokens = true) (inside : i < tokens.length) :
    ∃ j, skip? tokens i = some j := by
  fun_induction skip? tokens i with
  | case1 i nothing =>
    rw [List.getElem?_eq_getElem inside] at nothing
    cases nothing
  | case2 i t here error ih =>
    exact ih (inside_of_ne_eof complete here (by rw [error]; decide))
  | case3 i t here usable => exact ⟨i, rfl⟩

/-- A step of the parser: to the next usable token, the errors on the way being reported. -/
private theorem advanced_state (complete : isComplete tokens = true) (usable : Usable tokens i t)
    (going : t.kind ≠ .eof) :
    ∃ j, Next tokens i j ∧
      (state tokens i reports nesting blocks).advanced =
        state tokens j ((lexicalReports (stretch tokens i j)).reverse ++ reports)
          nesting blocks := by
  have ahead := inside_of_ne_eof complete usable.here going
  obtain ⟨j, found⟩ := exists_skip? complete ahead
  obtain ⟨same, reached, usable', errors⟩ := settled_state reports nesting blocks found
  refine ⟨j, ⟨reached, usable', errors⟩, ?_⟩
  rw [stretch_cons usable.here reached, lexicalReports_cons, if_neg usable.kind, ← same,
    state_of_ne_eof reports nesting blocks usable.here going]
  rfl

private theorem atBlockEnd_state (usable : Usable tokens i t) (going : t.kind ≠ .eof) :
    (state tokens i reports nesting blocks).atBlockEnd = true ↔
      t.kind = .rightBrace ∧ blocks ≠ 0 := by
  rw [state_of_ne_eof reports nesting blocks usable.here going]
  simp [atBlockEnd, sees, state, and_comm]

/-- The test of the recovery, behind a token that it has passed, is that for a boundary. -/
private theorem seek_step {last : Token} (passed : Usable tokens i last) (next : Next tokens i j)
    (usable : Usable tokens j t) :
    (Boundary tokens blocks j →
      (state tokens j reports nesting blocks).seek last = state tokens j reports nesting blocks) ∧
    (¬ Boundary tokens blocks j →
      (state tokens j reports nesting blocks).seek last =
        (state tokens j reports nesting blocks).advanced.seek t) := by
  have boundary : Boundary tokens blocks j ↔ _ := boundary_iff next passed usable
  by_cases ended : t.kind = .eof
  · have stays : (state tokens j reports nesting blocks).seek last =
        state tokens j reports nesting blocks :=
      seek_nil (rest_state_eof reports nesting blocks usable.here ended)
    exact ⟨fun _ => stays, fun inner => absurd (boundary.2 (.inl ended)) inner⟩
  · rw [← atBlockEnd_state reports nesting blocks usable ended] at boundary
    rw [seek_cons (congrArg State.rest (state_of_ne_eof reports nesting blocks usable.here ended)),
      boundary]
    exact ⟨fun stops => if_pos (stops.resolve_left ended), fun goes => if_neg (mt .inr goes)⟩

private theorem seek_state (complete : isComplete tokens = true) {last : Token}
    (passed : Usable tokens i last) (next : Next tokens i j) :
    ∃ k, First tokens blocks j k ∧
      (state tokens j reports nesting blocks).seek last =
        state tokens k ((lexicalReports (stretch tokens j k)).reverse ++ reports)
          nesting blocks := by
  induction left : tokens.length - j using Nat.strongRecOn generalizing i j last reports with
  | ind size ih =>
    obtain ⟨t, usable⟩ := next.usable
    have step := seek_step reports nesting blocks passed next usable
    by_cases boundary : Boundary tokens blocks j
    · refine ⟨j, ⟨Nat.le_refl j, boundary, fun k after before => by omega⟩, ?_⟩
      rw [step.1 boundary, stretch_self]
      rfl
    · have going : t.kind ≠ .eof := fun ended => boundary (.finish usable ended)
      have inside := inside_of_ne_eof complete usable.here going
      obtain ⟨k, next', advances⟩ := advanced_state reports nesting blocks complete usable going
      have shorter : tokens.length - k < size := by
        have later := next'.later
        omega
      obtain ⟨l, first, sought⟩ := ih _ shorter _ usable next' rfl
      refine ⟨l, First.ahead next' first boundary, ?_⟩
      rw [step.2 boundary, advances, sought,
        reports_append (Nat.le_of_lt next'.later) first.reached]

private theorem synchronized_stays (usable : Usable tokens i t) (stays : Stays blocks t) :
    (state tokens i reports nesting blocks).synchronized =
      state tokens i reports nesting blocks := by
  unfold State.synchronized
  split
  · rfl
  · rename_i u more upcoming
    have going : t.kind ≠ .eof := by
      intro ended
      rw [rest_state_eof reports nesting blocks usable.here ended] at upcoming
      cases upcoming
    rw [if_pos ((atBlockEnd_state reports nesting blocks usable going).2 (stays.resolve_left going))]

private theorem synchronized_moves (usable : Usable tokens i t) (moves : ¬ Stays blocks t) :
    (state tokens i reports nesting blocks).synchronized =
      (state tokens i reports nesting blocks).advanced.seek t := by
  obtain ⟨going, outside⟩ := not_or.1 moves
  have upcoming := congrArg State.rest (state_of_ne_eof reports nesting blocks usable.here going)
  unfold State.synchronized
  rw [upcoming]
  dsimp only
  rw [if_neg (mt (atBlockEnd_state reports nesting blocks usable going).1 outside)]

end States

/-- Where the recovery from a fault at a token takes the cursor. -/
structure Resumes (tokens : List Token) (blocks i : Nat) (t : Token) (j : Nat) : Prop where
  /-- It stays at the end, and before a brace that closes an open block. -/
  stays : Stays blocks t → j = i
  /-- From any other token it goes to the first boundary behind it. -/
  moves : ¬ Stays blocks t → First tokens blocks (i + 1) j
  /-- It passes no brace that closes an open block. -/
  braces : blocks ≠ 0 → ∀ k u, i ≤ k → k < j → tokens[k]? = some u → u.kind ≠ .rightBrace

section Recovery
variable {tokens : List Token} {i j : Nat} {t : Token} {blocks : Nat}

private theorem resumes_stays (stays : Stays blocks t) : Resumes tokens blocks i t i where
  stays _ := rfl
  moves moves := absurd stays moves
  braces _ k _ after before := by omega

private theorem resumes_moves (usable : Usable tokens i t) (moves : ¬ Stays blocks t)
    (first : First tokens blocks (i + 1) j) : Resumes tokens blocks i t j where
  stays stays := absurd stays moves
  moves _ := first
  braces inside k u after before here brace := by
    rcases Nat.eq_or_lt_of_le after with rfl | later
    · have same : t = u := Option.some.inj (usable.here.symm.trans here)
      exact moves (.inr ⟨same ▸ brace, inside⟩)
    · have closing : Usable tokens k u := ⟨here, by rw [brace]; decide⟩
      exact first.least k later before (.closed closing brace inside)

private theorem exists_resumes (complete : isComplete tokens = true) (usable : Usable tokens i t)
    (reports : List Diagnostic) (nesting blocks : Nat) :
    ∃ j, Resumes tokens blocks i t j ∧
      (state tokens i reports nesting blocks).synchronized =
        state tokens j ((lexicalReports (stretch tokens i j)).reverse ++ reports)
          nesting blocks := by
  by_cases stays : Stays blocks t
  · refine ⟨i, resumes_stays stays, ?_⟩
    rw [synchronized_stays reports nesting blocks usable stays, stretch_self]
    rfl
  · have going : t.kind ≠ .eof := (not_or.1 stays).1
    obtain ⟨j, next, advances⟩ := advanced_state reports nesting blocks complete usable going
    obtain ⟨k, first, sought⟩ := seek_state _ nesting blocks complete usable next
    refine ⟨k, resumes_moves usable stays (First.later next first), ?_⟩
    rw [synchronized_moves reports nesting blocks usable stays, advances, sought,
      reports_append (Nat.le_of_lt next.later) first.reached]

private theorem eq_state_of_at {s : State} (here : s.At tokens i) :
    ∃ t, Usable tokens i t ∧ s = state tokens i s.reports s.nesting s.blocks := by
  refine ⟨s.next, ⟨here.next, here.settled.usable_next (by rw [here.ended]; decide)⟩, ?_⟩
  obtain ⟨passed, behind, rfl, rfl, unended⟩ := here.split
  have inside : ∀ t ∈ s.rest, (t.kind != .eof) = true := fun t member =>
    bne_iff_ne.2 (unended t (List.mem_append_right _ member))
  have unfound : s.rest.find? (·.kind == .eof) = none :=
    List.find?_eq_none.2 fun t member => by simpa using inside t member
  obtain ⟨rest, finish, reports, nesting, blocks⟩ := s
  have ended : finish.kind = .eof := here.ended
  simp [state, List.takeWhile_append_of_pos inside, unfound, ended]

end Recovery

end Cursor

/-- The recovery is a loop that looks at the token passed last, even where that is one from
before the fault: there it stops at once, whichever token it was. -/
private theorem synchronized_eq_seek (s : State) (last : Token) :
    s.synchronized = (if s.atBlockEnd then s else s.advanced).seek
      (if s.atBlockEnd || s.atEnd then last else s.next) := by
  unfold State.synchronized State.atEnd State.next
  cases upcoming : s.rest with
  | nil =>
    have outside : s.atBlockEnd = false := by simp [atBlockEnd, sees, upcoming]
    have still : s.advanced = s := by
      obtain ⟨rest, finish, reports, nesting, blocks⟩ := s
      obtain rfl : rest = [] := upcoming
      rfl
    simp [outside, still, seek_nil upcoming]
  | cons t more =>
    cases inside : s.atBlockEnd with
    | true => simp [seek_cons upcoming, inside]
    | false => simp

/-- Every state of a parse has its cursor at a usable token. From there the recovery goes to
where `Resumes` says, reports the errors that it passes, in their order, and changes nothing
else; which token was passed before the fault plays no part. -/
theorem synchronized_boundary {tokens : List Token} (complete : isComplete tokens = true) :
    (∀ s, Moves (start tokens) s → ∃ i t, Cursor.Usable tokens i t ∧
      s = Cursor.state tokens i s.reports s.nesting s.blocks) ∧
    (∀ i t, Cursor.Usable tokens i t → ∀ reports nesting blocks,
      ∃ j, Cursor.Resumes tokens blocks i t j ∧
        (Cursor.state tokens i reports nesting blocks).synchronized =
          Cursor.state tokens j ((lexicalReports (Cursor.stretch tokens i j)).reverse ++ reports)
            nesting blocks) ∧
    ∀ (s : State) (last : Token), s.synchronized =
      (if s.atBlockEnd then s else s.advanced).seek
        (if s.atBlockEnd || s.atEnd then last else s.next) := by
  refine ⟨fun s moves => ?_, fun i t usable => Cursor.exists_resumes complete usable,
    synchronized_eq_seek⟩
  obtain ⟨_, _, began⟩ := at_start complete
  obtain ⟨i, here⟩ := at_of_moves began moves
  exact ⟨i, Cursor.eq_state_of_at here⟩

/-- A recovery that passes two errors and a token between them, up to the end of a block. -/
theorem synchronized_boundary_brace :
    let tokens : List Token := [.plain .slash 1, ⟨.error, "#", 1, .text "first"⟩, .plain .star 1,
      ⟨.error, "@", 1, .text "second"⟩, .plain .rightBrace 2, .plain .semicolon 2, .eof 2]
    (Cursor.state tokens 0 [] 2 1).synchronized =
      Cursor.state tokens 4
        [⟨1, .unnamed, .lexical (.text "second")⟩, ⟨1, .unnamed, .lexical (.text "first")⟩] 2 1 := by
  intro tokens
  have slash : Cursor.Usable tokens 0 (.plain .slash 1) := ⟨rfl, by decide⟩
  have star : Cursor.Usable tokens 2 (.plain .star 1) := ⟨rfl, by decide⟩
  have brace : Cursor.Usable tokens 4 (.plain .rightBrace 2) := ⟨rfl, by decide⟩
  have error : ∀ k u, tokens[k]? = some u → k = 1 ∨ k = 3 → u.kind = .error := by
    rintro k u here (rfl | rfl) <;> cases here <;> rfl
  have next : Cursor.Next tokens 0 2 :=
    ⟨by decide, ⟨_, star⟩, fun k u after before here => error k u here (by omega)⟩
  obtain ⟨j, resumes, same⟩ :=
    (synchronized_boundary (show isComplete tokens = true by decide)).2.1 0 _ slash [] 2 1
  have first := resumes.moves (by unfold Cursor.Stays; decide)
  have inside : j ≤ 4 := Nat.le_of_not_lt fun before =>
    first.least 4 (by decide) before (.closed brace rfl (by decide))
  obtain ⟨t, usable⟩ := first.boundary.usable
  have between : j ≠ 2 := by
    rintro rfl
    have stops := (Cursor.boundary_iff next slash star).1 first.boundary
    revert stops
    decide
  have reached : j = 4 := by
    have later := first.reached
    have odd : ¬ (j = 1 ∨ j = 3) := fun place => usable.kind (error j t usable.here place)
    omega
  subst reached
  exact same

end Scriptlet.Parse
