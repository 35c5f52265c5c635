import Scriptlet.Proofs.Parse.Cursor

/-! The rounds of a parse. All that the parser does to its state is one move after
another, and no move takes the cursor back or out of a complete list. The loops of the
program and of the blocks go round while their own tests allow it; in each round the
declaration asked for takes a token, whether it makes a statement or recovers from a
fault, and leaves the nesting and the open blocks as they were. So a parse comes to an
end with nothing open, at the first token of kind eof. -/
namespace Scriptlet.Parse
open State Grammar Relation

/-- What the parser does to its state. -/
inductive Move : State → State → Prop
  | advance (s : State) : Move s s.advanced
  | overrun {s : State} {t e : Token} {more : List Token} : s.rest = t :: e :: more →
      e.kind = .error → Move s (s.overrun e more)
  | report (s : State) (t : Token) (fault : Fault) : Move s (s.report t fault)
  | deeper (s : State) : Move s s.deeper
  | shallower (s : State) : Move s { s with nesting := s.nesting - 1 }
  | inner (s : State) : Move s s.inner
  | outer (s : State) : Move s { s with blocks := s.blocks - 1 }

abbrev Moves : State → State → Prop := ReflTransGen Move

private theorem law_moves : Law Moves where
  refl _ := .refl
  trans := .trans
  advanced s := .single (.advance s)
  overrun upcoming sort := .single (.overrun upcoming sort)
  report s _ _ fault := .single (.report s _ fault)
  reportNext s fault := .single (.report s _ fault)
  deeper inside := (inside.head (.deeper _)).tail (.shallower _)
  inner inside := (inside.head (.inner _)).tail (.outer _)

private theorem moves_recovered (limits : Limits) (depth : Nat) (s : State) :
    Moves s (recovered (statement limits depth) s).2 :=
  law_moves.recovered (law_moves.closed.statement limits depth) s

section Cursors
variable {tokens : List Token} {i j : Nat} {s s' : State}

private theorem State.At.lt_of_length (here : s.At tokens i) (there : s'.At tokens j)
    (shorter : s'.rest.length < s.rest.length) : i < j := by
  have first := here.index
  have second := there.index
  omega

private theorem at_of_move (here : s.At tokens i) (move : Move s s') : ∃ j, s'.At tokens j := by
  -- only an advance changes the tokens to come, also where it overruns
  cases move with
  | advance =>
    obtain ⟨j, _, there⟩ := here.advanced
    exact ⟨j, there⟩
  | overrun upcoming sort =>
    obtain ⟨j, _, there⟩ := here.advanced
    exact ⟨j, there.still (rest_overrun upcoming sort) rfl⟩
  | report | deeper | shallower | inner | outer => exact ⟨i, here.still rfl rfl⟩

theorem at_of_moves (here : s.At tokens i) (moves : Moves s s') : ∃ j, s'.At tokens j := by
  induction moves with
  | refl => exact ⟨i, here⟩
  | tail _ last ih =>
    obtain ⟨j, there⟩ := ih
    exact at_of_move there last

end Cursors

section Loops
variable {declaration : State → Option Stmt × State} {ends : State → Bool} {stays : State → Prop}
  {s s' : State}

/-- A round of a loop: its test does not hold, and it asks for a declaration. -/
inductive Round (declaration : State → Option Stmt × State) (ends : State → Bool) :
    State → State → Prop
  | next {s : State} : ends s = false → Round declaration ends s (declaration s).2

abbrev Rounds (declaration : State → Option Stmt × State) (ends : State → Bool) :
    State → State → Prop :=
  ReflTransGen (Round declaration ends)

private theorem Law.rounds {R : State → State → Prop} (law : Law R) (step : ∀ s, R s (declaration s).2)
    (rounds : Rounds declaration ends s s') : R s s' := by
  induction rounds with
  | refl => exact law.refl s
  | tail _ last ih =>
    obtain ⟨_⟩ := last
    exact law.trans ih (step _)

private theorem Progresses.rounds (progresses : Progresses declaration ends stays) (here : stays s)
    (rounds : Rounds declaration ends s s') : stays s' := by
  induction rounds with
  | refl => exact here
  | tail _ last ih =>
    obtain ⟨_⟩ := last
    exact progresses.kept _ ih

private theorem rounds_allDeclarations (progresses : Progresses declaration ends stays) (here : stays s) :
    Rounds declaration ends s (allDeclarations declaration ends s).2 := by
  induction n : s.rest.length using Nat.strongRecOn generalizing s with
  | ind n ih =>
    cases ended : ends s with
    | true => rw [allDeclarations_ended ended]
    | false =>
      rw [allDeclarations_next progresses here ended]
      subst n
      exact (ih _ (progresses.shorter s here ended) (progresses.kept s here) rfl).head (.next ended)

end Loops

section Blocks
variable {limits : Limits} {depth : Nat} {s opened : State}

private theorem statement_opened (opens : take? leader? s = .ok (some .block) opened)
    (room : opened.nesting + 1 ≤ limits.nesting) {found : List Stmt} {s' : State}
    (ran : allDeclarations (recovered (statement limits depth)) endsBody opened.deeper.inner =
      (found, s')) :
    statement limits (depth + 1) s =
      (expect .rightBrace .braceAfterBlock >>= fun _ => pure (.block found))
        { s' with nesting := opened.nesting, blocks := opened.blocks } := by
  have follows : Follows opened.deeper.inner
      (allDeclarations (recovered (statement limits depth)) endsBody opened.deeper.inner).2 :=
    law_follows.declarations (follows_recovered limits depth) endsBody _ _
  rw [ran] at follows
  have looped : body (recovered (statement limits depth)) opened.deeper.inner = .ok found s' := by
    rw [body_eq]
    exact congrArg (fun made : List Stmt × State => EStateM.Result.ok made.1 made.2) ran
  have blocked := nested_ok room (inBlock_ok looped)
  have left : { s' with blocks := s'.blocks - 1, nesting := s'.nesting - 1 } =
      { s' with nesting := opened.nesting, blocks := opened.blocks } := by
    rw [follows.blocks, follows.nesting]
    rfl
  refine (bind_of_ok opens).trans ((bind_of_ok blocked).trans ?_)
  dsimp only
  rw [left]

end Blocks

/-- The calls for a declaration in a parse, each with the levels of recursion it has to
spend: those of the loop of the program, and those of the loop of a block that such a call
opens. -/
inductive Calls (limits : Limits) (tokens : List Token) : Nat → State → Prop
  | program {s : State} : Rounds (declaration limits) atEnd (start tokens) s →
      s.atEnd = false → Calls limits tokens limits.depth s
  | block {depth : Nat} {s opened s' : State} : Calls limits tokens (depth + 1) s →
      take? leader? s = .ok (some .block) opened → opened.nesting + 1 ≤ limits.nesting →
      Rounds (recovered (statement limits depth)) endsBody opened.deeper.inner s' →
      endsBody s' = false → Calls limits tokens depth s'

namespace Calls
variable {limits : Limits} {tokens : List Token} {depth : Nat} {s : State}

theorem moves (call : Calls limits tokens depth s) : Moves (start tokens) s := by
  induction call with
  | program rounds _ => exact law_moves.rounds (moves_recovered limits limits.depth) rounds
  | @block _ outer _ _ _ opens _ rounds _ ih =>
    have took := law_moves.take? leader? outer
    rw [opens] at took
    have entered := ((ih.trans took).tail (.deeper _)).tail (.inner _)
    exact entered.trans (law_moves.rounds (moves_recovered limits _) rounds)

theorem shorter (call : Calls limits tokens depth s) :
    (recovered (statement limits depth) s).2.rest.length < s.rest.length := by
  cases call with
  | program rounds going =>
    -- outside of all blocks no brace stops the recovery
    have progresses := progresses_declaration limits
    exact progresses.shorter s (progresses.rounds rfl rounds) going
  | block _ _ _ _ going => exact (progresses_body limits depth).shorter s trivial going

end Calls

/-- A parse that stays within its token list and comes to an end. -/
structure Contained (limits : Limits) (tokens : List Token) : Prop where
  /-- The cursor starts at the first usable token. -/
  start : ∃ i, Cursor.skip? tokens 0 = some i ∧ (State.start tokens).At tokens i
  /-- Whatever has been done, the token at the cursor is in the list, and so are those
  that an advance from there passes and comes to. -/
  reads : ∀ s, Moves (State.start tokens) s → ∃ i j, s.At tokens i ∧ tokens[i]? = some s.next ∧
    Cursor.advance? tokens i = some j ∧ s.advanced.At tokens j
  /-- The rules and statements do to the state what the parser can do to it. -/
  runs : ∀ depth, (∀ r, Keeps Moves (rule limits.nesting depth r)) ∧
    Keeps Moves (statement limits depth)
  /-- Each call for a declaration moves the cursor on and closes what it opens. -/
  calls : ∀ depth s, Calls limits tokens depth s → ∀ made s',
    recovered (statement limits depth) s = (made, s') →
    Moves (State.start tokens) s ∧ Moves s s' ∧
      (∃ i j, s.At tokens i ∧ s'.At tokens j ∧ i < j) ∧
      s'.nesting = s.nesting ∧ s'.blocks = s.blocks
  /-- The loop of a block that a call opens ends by its own test. -/
  blocks : ∀ depth s opened, Calls limits tokens (depth + 1) s →
    take? leader? s = .ok (some .block) opened → opened.nesting + 1 ≤ limits.nesting →
    ∃ found s', Rounds (recovered (statement limits depth)) endsBody opened.deeper.inner s' ∧
      endsBody s' = true ∧
      statement limits (depth + 1) s =
        (expect .rightBrace .braceAfterBlock >>= fun _ => pure (.block found))
          { s' with nesting := opened.nesting, blocks := opened.blocks }
  /-- The loop of the program ends by its own test at the first token of kind eof, with
  nothing open. -/
  program : ∃ s, (statements limits (State.start tokens)).2 = s ∧
    Rounds (declaration limits) atEnd (State.start tokens) s ∧ s.atEnd = true ∧
    s.At tokens (tokens.findIdx (·.kind == .eof)) ∧ s.nesting = 0 ∧ s.blocks = 0

/-- Every parse of a complete token list, whatever is in it, stays within it. -/
theorem program_contained (limits : Limits) (tokens : List Token)
    (complete : isComplete tokens = true) : Contained limits tokens where
  start := at_start complete
  reads s moves := by
    obtain ⟨_, _, began⟩ := at_start complete
    obtain ⟨i, here⟩ := at_of_moves began moves
    obtain ⟨j, advances, there⟩ := here.advanced
    exact ⟨i, j, here, here.next, advances, there⟩
  runs depth := ⟨law_moves.closed.rule limits.nesting depth, law_moves.closed.statement limits depth⟩
  calls depth s call made s' ran := by
    obtain ⟨_, _, began⟩ := at_start complete
    have went := moves_recovered limits depth s
    have follows := follows_recovered limits depth s
    have shorter := call.shorter
    rw [ran] at went follows shorter
    obtain ⟨i, here⟩ := at_of_moves began call.moves
    obtain ⟨j, there⟩ := at_of_moves here went
    exact ⟨call.moves, went, ⟨i, j, here, there, here.lt_of_length there shorter⟩,
      follows.nesting, follows.blocks⟩
  blocks depth s opened _ opens room :=
    ⟨_, _, rounds_allDeclarations (progresses_body limits depth) trivial,
      ends_allDeclarations (progresses_body limits depth) trivial,
      statement_opened opens room rfl⟩
  program := by
    obtain ⟨_, _, began⟩ := at_start complete
    have rounds : Rounds (declaration limits) atEnd (State.start tokens)
        (statements limits (State.start tokens)).2 :=
      rounds_allDeclarations (progresses_declaration limits) rfl
    have finished := rest_statements limits (s := State.start tokens) rfl
    have follows := law_follows.rounds (follows_recovered limits limits.depth) rounds
    obtain ⟨i, there⟩ := at_of_moves began
      (law_moves.rounds (moves_recovered limits limits.depth) rounds)
    have last := there.index
    rw [finished, List.length_nil, Nat.add_zero] at last
    exact ⟨_, rfl, rounds, List.isEmpty_iff.2 finished, last ▸ there, follows.nesting, follows.blocks⟩

/-- A brace that closes nothing, an error, an open block, and more behind an end. -/
theorem program_contained_broken :
    isComplete [.plain .rightBrace 1, ⟨.error, "", 1, .text "Unterminated string"⟩,
        .plain .leftBrace 1, .plain .semicolon 1, .eof 1, .plain .printWord 2, .eof 2] = true ∧
      Contained .standard [.plain .rightBrace 1, ⟨.error, "", 1, .text "Unterminated string"⟩,
        .plain .leftBrace 1, .plain .semicolon 1, .eof 1, .plain .printWord 2, .eof 2] :=
  ⟨by decide, program_contained .standard _ (by decide)⟩

end Scriptlet.Parse
