import Scriptlet.Proofs.Parse.BreakOff

/-! Blocks in a stretch of tokens. Where every block inside stands at a place
where a statement may begin, or behind a statement that has broken off, and the
blocks are not nested past the limits, the declarations of a block use up all
that is between its braces, whatever faults there are, and the brace behind them
is the one that closes it. -/
namespace Scriptlet.Parse
open State Grammar

namespace Horizon

/-- The horizon behind a token, as a state has it. -/
def beyond (s : State) (stop : Token) (usable : stop.kind ≠ .error) (more : List Token) :
    Horizon where
  tokens := stop :: more
  finish := s.finish
  reports := s.reports
  usable t head := by
    cases head
    exact usable

/-- A state before a stretch that ends at a token. -/
def standing (nesting blocks : Nat) (stop : Token) : State := ⟨[], stop, [], nesting, blocks⟩

def nowhere (s : State) : Horizon := ⟨[], s.finish, [], fun _ head => by cases head⟩

theorem facing_stretch (s : State) {stop : Token} (usable : stop.kind ≠ .error)
    (ts more : List Token) :
    s.facing (ts ++ stop :: more) =
      (beyond s stop usable more).place ((standing s.nesting s.blocks stop).facing ts) := by
  unfold facing
  rw [← place_settled]
  rfl

section Brace
variable {h : Horizon} {s : State} {stop : Token} {more : List Token}
  (shape : h.tokens = stop :: more) (closed : stop.kind = .rightBrace)
include shape closed

/-- Before the brace that closes a block, a statement other than a block is read
by itself. -/
private theorem statement_before_brace (limits : Limits) (depth : Nat) (meets : s.finish = stop)
    (no_block : ∀ t ∈ s.rest, t.kind ≠ .leftBrace) :
    statement limits depth (h.place s) = h.placed (statement limits depth s) ∧
      (after (statement limits depth s)).finish = h.next := by
  have next : h.next = stop := by rw [Horizon.next, shape]; rfl
  have head := head_of_next next
  have outside := outside_of_next next (by rw [closed]; rfl)
  have unled : h.Refuses leader? := fun t first => by rw [head t first]; simp [leader?, closed]
  obtain ⟨unseen, unseen'⟩ := sees_place_absent next (by rw [closed]; decide) no_block
  rw [statement_eq_clause limits depth unseen, statement_eq_clause limits depth unseen']
  refine Local.bind (local_clause outside unled limits depth) (fun read => ?_) s
    (meets.trans next.symm)
  exact .bind (.expect (fun t first => by rw [head t first, closed]; decide) _) fun _ => .pure _

private theorem endsBody_place (s : State) :
    endsBody (h.place s) = endsBody s := by
  unfold endsBody atEnd sees place
  cases upcoming : s.rest with
  | nil => simp [shape, closed]
  | cons t later => rfl

private theorem allDeclarations_flat (limits : Limits) (depth : Nat) (meets : s.finish = stop)
    (inside : s.blocks ≠ 0)
    (flat : ∀ t ∈ s.rest, t.kind ≠ .leftBrace ∧ t.kind ≠ .rightBrace) :
    allDeclarations (recovered (statement limits depth)) endsBody (h.place s) =
      ((allDeclarations (recovered (statement limits depth)) endsBody s).1,
        h.place (allDeclarations (recovered (statement limits depth)) endsBody s).2) := by
  refine allDeclarations_place
    (fun s => s.finish = stop ∧ s.blocks ≠ 0 ∧
      ∀ t ∈ s.rest, t.kind ≠ .leftBrace ∧ t.kind ≠ .rightBrace)
    (progresses_body limits depth) (fun s here _ => ?_) (fun s _ => ?_) ⟨meets, inside, flat⟩
    trivial
  · obtain ⟨meets, inside, flat⟩ := here
    have follows := follows_recovered limits depth s
    obtain ⟨ran, met⟩ := statement_before_brace shape closed limits depth meets
      fun t member => (flat t member).1
    have closes : h.Closes (after (statement limits depth s)).blocks := by
      intro t head
      rw [shape] at head
      cases head
      refine ⟨closed, ?_⟩
      rwa [(keeps_statement limits depth s).blocks]
    exact ⟨recovered_place (complains.statement limits depth) ran met closes, follows.finish.trans meets,
      by rwa [follows.blocks], fun t member => flat t (follows.rest.subset member)⟩
  · exact endsBody_place shape closed s

end Brace

end Horizon

open Horizon

/-- The declarations of a block use up these tokens, whatever comes behind the
brace that closes it. -/
def ReadsBody (limits : Limits) (depth : Nat) (s : State) : Prop :=
  ∃ found s', s'.rest = [] ∧ Follows s s' ∧
    ∀ (h : Horizon) more, h.tokens = s.finish :: more →
      allDeclarations (recovered (statement limits depth)) endsBody (h.place s) =
        (found, h.place s')

private theorem readsBody_flat (limits : Limits) (depth : Nat) {s : State}
    (closed : s.finish.kind = .rightBrace) (inside : s.blocks ≠ 0)
    (flat : ∀ t ∈ s.rest, t.kind ≠ .leftBrace ∧ t.kind ≠ .rightBrace) :
    ReadsBody limits depth s := by
  have follows : Follows s (allDeclarations (recovered (statement limits depth)) endsBody s).2 :=
    law_follows.declarations (follows_recovered limits depth) endsBody s.rest s
  have ended := ends_allDeclarations (s := s) (progresses_body limits depth) trivial
  refine ⟨_, _, ?_, follows, fun h more shape =>
    allDeclarations_flat shape closed limits depth rfl inside flat⟩
  generalize (allDeclarations (recovered (statement limits depth)) endsBody s).2 = s' at *
  -- the loop ends at a brace or at the end, and there is no brace
  unfold endsBody atEnd sees at ended
  cases upcoming : s'.rest with
  | nil => rfl
  | cons t more =>
    have other := (flat t (follows.rest.subset (by rw [upcoming]; exact List.mem_cons_self))).2
    simp [upcoming, other] at ended

/-- A block whose declarations use up what is between its braces is a statement
that ends with the second brace. -/
theorem statement_of_readsBody {limits : Limits} {depth nesting blocks : Nat}
    {opening closing : Token} {inner : List Token} (opened : opening.kind = .leftBrace)
    (closed : closing.kind = .rightBrace) (room : nesting + 1 ≤ limits.nesting)
    (reads : ReadsBody limits depth
      ((standing (nesting + 1) (blocks + 1) closing).facing inner)) :
    ∃ body reports, ∀ (s : State) (rest : List Token), s.nesting = nesting → s.blocks = blocks →
      statement limits (depth + 1) (s.facing (opening :: (inner ++ closing :: rest))) =
        .ok (.block body) ({ s with reports := reports ++ s.reports }.facing rest) := by
  have usable : opening.kind ≠ .error := by rw [opened]; decide
  have usable' : closing.kind ≠ .error := by rw [closed]; decide
  obtain ⟨body, s', used_up, follows, run⟩ := reads
  refine ⟨body, s'.reports, fun s rest same_nesting same_blocks => ?_⟩
  subst same_nesting same_blocks
  have looped : Parse.body (recovered (statement limits depth))
      (s.facing (inner ++ closing :: rest)).deeper.inner =
        .ok body ((beyond s.deeper.inner closing usable' rest).place s') := by
    have whole := run (beyond s.deeper.inner closing usable' rest) rest rfl
    have stretch := facing_stretch s.deeper.inner usable' inner rest
    rw [body_eq]
    show EStateM.Result.ok
      (allDeclarations _ endsBody (s.deeper.inner.facing (inner ++ closing :: rest))).1
      (allDeclarations _ endsBody (s.deeper.inner.facing (inner ++ closing :: rest))).2 = _
    rw [stretch]
    exact congrArg (fun made => EStateM.Result.ok made.1 made.2) whole
  have blocked : nested limits.nesting (inBlock (Parse.body (recovered (statement limits depth))))
      (s.facing (inner ++ closing :: rest)) =
        .ok body ({ s with reports := s'.reports ++ s.reports }.facing (closing :: rest)) := by
    refine (nested_ok (s := s.facing (inner ++ closing :: rest)) room
      (inBlock_ok looped)).trans (congrArg _ ?_)
    have nesting_kept : s'.nesting - 1 = s.nesting := by rw [follows.nesting]; rfl
    have blocks_kept : s'.blocks - 1 = s.blocks := by rw [follows.blocks]; rfl
    rw [facing_cons _ usable']
    show State.mk (s'.rest ++ closing :: rest) s.finish (s'.reports ++ s.reports)
      (s'.nesting - 1) (s'.blocks - 1) = _
    rw [used_up, nesting_kept, blocks_kept]
    rfl
  have entered : statement limits (depth + 1) (s.facing (opening :: (inner ++ closing :: rest))) =
      _ := bind_of_ok (take?_facing usable (leader?_eq_block.2 opened) s _)
  rw [entered]
  exact (bind_of_ok blocked).trans (bind_of_ok (expect_facing closed (by decide) _ _ rest))

/-- Tokens between the braces of a block in which every inner block comes first, or
right behind a semicolon or another block, or behind a statement that breaks off at
one of its tokens, lexical errors aside; the number bounds how deep the inner blocks
are nested, and the expressions before such a token. -/
inductive Orderly : Nat → List Token → Prop
  | flat {room ts} (plain : ∀ t ∈ ts, t.kind ≠ .leftBrace ∧ t.kind ≠ .rightBrace) :
      Orderly room ts
  | behind {room ts finish more} (plain : ∀ t ∈ ts, t.kind ≠ .leftBrace ∧ t.kind ≠ .rightBrace)
      (ended : finish.kind = .semicolon) (later : Orderly room more) :
      Orderly room (ts ++ finish :: more)
  | block {room errors opening inner closing more} (lexical : ∀ t ∈ errors, t.kind = .error)
      (opened : opening.kind = .leftBrace) (inside : Orderly room inner)
      (closed : closing.kind = .rightBrace) (later : Orderly (room + 1) more) :
      Orderly (room + 1) (errors ++ opening :: (inner ++ closing :: more))
  | faulty {room errors begun next passed opener more} (lexical : ∀ t ∈ errors, t.kind = .error)
      (breaks : BreaksOff room next begun) (usable : next.kind ≠ .error)
      (flat : ∀ t ∈ begun ++ next :: passed,
        t.kind ≠ .leftBrace ∧ t.kind ≠ .rightBrace ∧ t.kind ≠ .semicolon)
      (led : ∀ t ∈ (begun ++ next :: passed).tail, t.kind.startsStatement = false)
      (opens : opener.kind.startsStatement = true) (later : Orderly room (opener :: more)) :
      Orderly room (errors ++ (begun ++ next :: (passed ++ opener :: more)))

namespace Orderly
variable {room : Nat} {ts : List Token}

private theorem mem_of_mem_dropWhile {t : Token} (member : t ∈ ts.dropWhile isLexicalError) : t ∈ ts :=
  (List.dropWhile_suffix isLexicalError).subset member

theorem usable (orderly : Orderly room ts) : Orderly room (ts.dropWhile isLexicalError) := by
  cases orderly with
  | flat plain => exact .flat fun t member => plain t (mem_of_mem_dropWhile member)
  | behind plain ended later =>
    have sort := ne_of_eq_of_ne ended (by decide : Kind.semicolon ≠ .error)
    rw [dropWhile_append_cons sort]
    exact .behind (fun t member => plain t (mem_of_mem_dropWhile member)) ended later
  | block lexical opened inside closed later =>
    have sort := ne_of_eq_of_ne opened (by decide : Kind.leftBrace ≠ .error)
    rw [dropWhile_append_cons sort]
    exact .block (fun t member => lexical t (mem_of_mem_dropWhile member)) opened
      inside closed later
  | @faulty room errors begun next passed opener more lexical breaks usable flat led opens later =>
    have passes : ∀ t ∈ errors, isLexicalError t = true := fun t member =>
      beq_iff_eq.2 (lexical t member)
    rw [List.dropWhile_append_of_pos passes, dropWhile_of_clear (breaks.clear usable _)]
    have nothing : ∀ t ∈ ([] : List Token), t.kind = .error := by simp
    exact .faulty nothing breaks usable flat led opens later

private theorem split_semicolon {ts more : List Token} {finish : Token}
    (plain : ∀ t ∈ ts, t.kind ≠ .leftBrace ∧ t.kind ≠ .rightBrace)
    (ended : finish.kind = .semicolon) (later : Orderly room more) :
    ∃ us stop vs, ts ++ finish :: more = us ++ stop :: vs ∧ stop.kind = .semicolon ∧
      (∀ t ∈ us, t.kind ≠ .leftBrace ∧ t.kind ≠ .rightBrace ∧ t.kind ≠ .semicolon) ∧
      Orderly room vs := by
  induction ts with
  | nil => exact ⟨[], finish, more, rfl, ended, by simp, later⟩
  | cons t ts ih =>
    have here := plain t List.mem_cons_self
    have behind := fun u member => plain u (List.mem_cons_of_mem t member)
    by_cases semicolon : t.kind = .semicolon
    · exact ⟨[], t, ts ++ finish :: more, rfl, semicolon, by simp, .behind behind ended later⟩
    · obtain ⟨us, stop, vs, shape, closes, flat, orderly⟩ := ih behind
      refine ⟨t :: us, stop, vs, congrArg (t :: ·) shape, closes, ?_, orderly⟩
      intro u member
      rcases List.mem_cons.1 member with rfl | inside
      · exact ⟨here.1, here.2, semicolon⟩
      · exact flat u inside

end Orderly

theorem ReadsBody.next {limits : Limits} {depth : Nat} {s s' : State} {made : Option Stmt}
    (follows : Follows s s')
    (first : ∀ (h : Horizon) more, h.tokens = s.finish :: more →
      endsBody (h.place s) = false ∧
        recovered (statement limits depth) (h.place s) = (made, h.place s'))
    (reads : ReadsBody limits depth s') : ReadsBody limits depth s := by
  obtain ⟨found, left, used_up, onward, run⟩ := reads
  refine ⟨made.toList ++ found, left, used_up, law_follows.trans follows onward, ?_⟩
  intro h more shape
  obtain ⟨goes_on, ran⟩ := first h more shape
  rw [allDeclarations_next (progresses_body limits depth) trivial goes_on, ran]
  dsimp only
  rw [run h more (by rw [shape, follows.finish])]

private theorem length_of_place {limits : Limits} {depth : Nat} {h : Horizon} {s s' : State}
    {made : Option Stmt} (goes_on : endsBody (h.place s) = false)
    (ran : recovered (statement limits depth) (h.place s) = (made, h.place s')) :
    s'.rest.length < s.rest.length := by
  have shorter := (progresses_body limits depth).shorter _ trivial goes_on
  rw [ran] at shorter
  simp only [place, List.length_append] at shorter
  omega

private theorem endsBody_cons {s : State} {t : Token} {more : List Token} (upcoming : s.rest = t :: more)
    (other : t.kind ≠ .rightBrace) : endsBody s = false := by
  simp [endsBody, atEnd, sees, upcoming, other]

/-- What is left of a stretch with a semicolon in it, when its part before the
semicolon is left in this state. -/
def resumed (s left : State) (stop : Token) (more : List Token) : State :=
  if left.rest.isEmpty then
    { left with rest := stop :: more, finish := s.finish }.advanced
  else { left with rest := left.rest ++ stop :: more, finish := s.finish }

section Semicolon
variable {s : State} {us vs : List Token} {stop : Token}

/-- The part of a stretch before a semicolon. -/
def before (s : State) (us : List Token) (stop : Token) : State :=
  { s with rest := us, finish := stop }

/-- The horizon of that part. -/
def ahead (h : Horizon) (stop : Token) (usable : stop.kind ≠ .error) (vs : List Token) :
    Horizon where
  tokens := stop :: (vs ++ h.tokens)
  finish := h.finish
  reports := h.reports
  usable t head := by
    cases head
    exact usable

private theorem place_before (shape : s.rest = us ++ stop :: vs) (usable : stop.kind ≠ .error)
    (h : Horizon) : h.place s = (ahead h stop usable vs).place (before s us stop) := by
  simp [place, before, ahead, shape]

private theorem settled_before (shape : s.rest = us ++ stop :: vs) (here : Settled s) :
    Settled (before s us stop) := by
  intro t head
  have first : us.head? = some t := head
  exact here t (by simp [shape, List.head?_append, first])

private theorem endsBody_before (shape : s.rest = us ++ stop :: vs)
    (flat : ∀ t ∈ us ++ [stop], t.kind ≠ .rightBrace) (h : Horizon) :
    endsBody (h.place s) = false := by
  cases us with
  | nil =>
    have upcoming : (h.place s).rest = stop :: (vs ++ h.tokens) := by simp [place, shape]
    exact endsBody_cons upcoming (flat stop (by simp))
  | cons u us =>
    have upcoming : (h.place s).rest = u :: (us ++ stop :: vs ++ h.tokens) := by
      simp [place, shape]
    exact endsBody_cons upcoming (flat u (by simp))

private theorem recovered_before (limits : Limits) (depth : Nat) (shape : s.rest = us ++ stop :: vs)
    (ended : stop.kind = .semicolon)
    (flat : ∀ t ∈ us, t.kind ≠ .leftBrace ∧ t.kind ≠ .rightBrace ∧ t.kind ≠ .semicolon)
    (h : Horizon) :
    recovered (statement limits depth) (h.place s) =
      ((recoveredClause limits depth (before s us stop)).1,
        h.place (resumed s (recoveredClause limits depth (before s us stop)).2 stop vs)) := by
  have usable : stop.kind ≠ .error := by rw [ended]; decide
  have ran := recovered_semicolon limits depth (s := before s us stop)
    (h := ahead h stop usable vs)
    (fun t member => ⟨(flat t member).2.2, (flat t member).1⟩) rfl ended rfl
  rw [place_before shape usable, ran]
  generalize (recoveredClause limits depth (before s us stop)).2 = left
  refine congrArg _ ?_
  unfold Horizon.leave resumed
  cases upcoming : left.rest with
  | nil =>
    simp only [List.isEmpty_nil, if_true]
    rw [← place_advanced (List.cons_ne_nil _ _)]
    simp [place, ahead, upcoming]
  | cons t more =>
    simp only [List.isEmpty_cons, Bool.false_eq_true, if_false]
    simp [place, ahead, upcoming]

private theorem follows_resumed {left : State} (shape : s.rest = us ++ stop :: vs)
    (follows : Follows (before s us stop) left) : Follows s (resumed s left stop vs) := by
  unfold resumed
  split
  · refine ⟨?_, rfl, follows.nesting, follows.blocks⟩
    rw [shape]
    exact (follows_advanced _).rest.trans (List.suffix_append us _)
  · refine ⟨?_, rfl, follows.nesting, follows.blocks⟩
    rw [shape]
    obtain ⟨taken, whole⟩ := follows.rest
    exact ⟨taken, by rw [← List.append_assoc, whole]; rfl⟩

private theorem settled_resumed (limits : Limits) (depth : Nat) (shape : s.rest = us ++ stop :: vs)
    (here : Settled s) :
    Settled (resumed s (recoveredClause limits depth (before s us stop)).2 stop vs) := by
  have still := law_settled.recoveredClause limits depth (before s us stop)
    (settled_before shape here)
  unfold resumed
  split
  · exact settled_advanced _
  · rename_i going
    intro t head
    refine still t ?_
    generalize (recoveredClause limits depth (before s us stop)).2.rest = left at *
    cases left with
    | nil => exact absurd rfl going
    | cons u left => exact head

end Semicolon

section Steps
variable (limits : Limits) {depth room : Nat} {s : State}

private theorem readsBody_behind {us vs : List Token} {stop : Token} (shape : s.rest = us ++ stop :: vs)
    (ended : stop.kind = .semicolon)
    (flat : ∀ t ∈ us, t.kind ≠ .leftBrace ∧ t.kind ≠ .rightBrace ∧ t.kind ≠ .semicolon)
    (orderly : Orderly room vs) (here : Settled s)
    (later : ∀ s', Follows s s' → s'.rest.length < s.rest.length → Orderly room s'.rest →
      Settled s' → ReadsBody limits depth s') : ReadsBody limits depth s := by
  have began := law_follows.recoveredClause limits depth (before s us stop)
  have follows := follows_resumed shape began
  have settled := settled_resumed limits depth shape here
  have first := recovered_before limits depth shape ended flat
  have left_orderly : Orderly room
      (resumed s (recoveredClause limits depth (before s us stop)).2 stop vs).rest := by
    unfold resumed
    split
    · exact orderly.usable
    · refine .behind (fun t member => ?_) ended orderly
      exact ⟨(flat t (began.rest.subset member)).1, (flat t (began.rest.subset member)).2.1⟩
  generalize resumed s (recoveredClause limits depth (before s us stop)).2 stop vs = s' at *
  have goes_on := endsBody_before shape (fun t member => by
    rcases List.mem_append.1 member with inside | last
    · exact (flat t inside).2.1
    · rw [List.mem_singleton.1 last, ended]
      decide)
  have shorter := length_of_place (goes_on (nowhere s)) (first (nowhere s))
  exact ReadsBody.next follows (fun h _ _ => ⟨goes_on h, first h⟩)
    (later s' follows shorter left_orderly settled)

private theorem readsBody_faulty {us vs more : List Token} {next opener : Token}
    (shape : s.rest = (us ++ next :: vs) ++ opener :: more) (here : Settled s)
    (breaks : BreaksOff room next us) (usable : next.kind ≠ .error)
    (nests : s.nesting + room ≤ limits.nesting)
    (flat : ∀ t ∈ us ++ next :: vs,
      t.kind ≠ .leftBrace ∧ t.kind ≠ .rightBrace ∧ t.kind ≠ .semicolon)
    (led : ∀ t ∈ (us ++ next :: vs).tail, t.kind.startsStatement = false)
    (opens : opener.kind.startsStatement = true)
    (later : ∀ s', Follows s s' → s'.rest = opener :: more → ReadsBody limits depth s') :
    ReadsBody limits depth s := by
  have clear : opener.kind ≠ .error := by
    intro sort
    rw [sort] at opens
    cases opens
  obtain ⟨left, used_up, follows, ran⟩ := recovered_faulty
    (s := before s (us ++ next :: vs) opener) (breaks.faulty usable limits depth) usable rfl
    (settled_before shape here) nests (fun t member => ⟨(flat t member).2.2, (flat t member).2.1⟩)
    led
  have goes_on := endsBody_before shape (fun t member => by
    rcases List.mem_append.1 member with inside | last
    · exact (flat t inside).2.1
    · rw [List.mem_singleton.1 last]
      intro sort
      rw [sort] at opens
      cases opens)
  have first : ∀ h : Horizon, recovered (statement limits depth) (h.place s) =
      (none, h.place { left with rest := opener :: more, finish := s.finish }) := by
    intro h
    rw [place_before shape clear, ran (ahead h opener clear more) fun t head => ?_]
    · simp [place, ahead, used_up]
    · cases head
      exact .inl opens
  have onward : Follows s { left with rest := opener :: more, finish := s.finish } :=
    ⟨by rw [shape]; exact List.suffix_append _ _, rfl, follows.nesting, follows.blocks⟩
  exact ReadsBody.next onward (fun h _ _ => ⟨goes_on h, first h⟩) (later _ onward rfl)

private theorem readsBody_block {opening closing : Token} {inner more : List Token}
    (shape : s.rest = opening :: (inner ++ closing :: more)) (opened : opening.kind = .leftBrace)
    (closed : closing.kind = .rightBrace) (nests : s.nesting + 1 ≤ limits.nesting)
    (inside : ReadsBody limits depth
      ((standing (s.nesting + 1) (s.blocks + 1) closing).facing inner))
    (later : ∀ reports,
      ReadsBody limits (depth + 1) ({ s with reports := reports ++ s.reports }.facing more)) :
    ReadsBody limits (depth + 1) s := by
  have usable : opening.kind ≠ .error := by rw [opened]; decide
  obtain ⟨body, reports, ran⟩ := statement_of_readsBody opened closed nests inside
  have first : ∀ h : Horizon, recovered (statement limits (depth + 1)) (h.place s) =
      (some (.block body), h.place ({ s with reports := reports ++ s.reports }.facing more)) := by
    intro h
    have placed : h.place s =
        (h.place s).facing (opening :: (inner ++ closing :: (more ++ h.tokens))) := by
      rw [facing_cons _ usable]
      simp [place, shape]
    have made := ran (h.place s) (more ++ h.tokens) rfl rfl
    rw [← placed] at made
    unfold recovered
    rw [made, place_facing]
    simp only [place, List.append_assoc]
  have goes_on : ∀ h : Horizon, endsBody (h.place s) = false := by
    intro h
    have upcoming : (h.place s).rest = opening :: (inner ++ closing :: more ++ h.tokens) := by
      simp [place, shape]
    refine endsBody_cons upcoming ?_
    rw [opened]
    decide
  have follows : Follows s ({ s with reports := reports ++ s.reports }.facing more) := by
    refine ⟨?_, rfl, rfl, rfl⟩
    rw [shape]
    exact (List.dropWhile_suffix _).trans ⟨opening :: (inner ++ [closing]), by simp⟩
  exact ReadsBody.next follows (fun h _ _ => ⟨goes_on h, first h⟩) (later reports)

end Steps

/-- The declarations of a block use up all that is between its braces, if the blocks
inside are in order. -/
theorem readsBody_of_orderly (limits : Limits) {room depth : Nat} {s : State}
    (orderly : Orderly room s.rest) (levels : room ≤ depth)
    (nests : s.nesting + room ≤ limits.nesting) (inside : s.blocks ≠ 0)
    (closed : s.finish.kind = .rightBrace) (here : Settled s) : ReadsBody limits depth s := by
  -- on the number of tokens: every declaration takes some of them
  induction n : s.rest.length using Nat.strongRecOn generalizing room depth s with
  | ind n ih =>
    subst n
    generalize shape : s.rest = ts at orderly
    cases orderly with
    | flat plain => exact readsBody_flat limits depth closed inside (by rwa [shape])
    | behind plain ended later =>
      obtain ⟨us, stop, vs, split, stops, flat, behind⟩ := Orderly.split_semicolon plain ended later
      rw [split] at shape
      refine readsBody_behind limits shape stops flat behind here
        fun s' follows shorter left_orderly settled => ?_
      exact ih _ shorter left_orderly levels (by rwa [follows.nesting]) (by rwa [follows.blocks])
        (by rwa [follows.finish]) settled rfl
    | @block room errors opening inner closing more lexical opened inner_orderly closes later =>
      obtain ⟨depth, rfl⟩ : ∃ lower, depth = lower + 1 := ⟨depth - 1, by omega⟩
      cases errors with
      | cons error errors =>
        -- a state never faces a lexical error
        exact absurd (lexical error List.mem_cons_self) (here error (by rw [shape]; rfl))
      | nil =>
        rw [List.nil_append] at shape
        have counted : s.rest.length = inner.length + more.length + 2 := by
          rw [shape]
          simp only [List.length_cons, List.length_append]
          omega
        have fewer : ∀ us : List Token, (us.dropWhile isLexicalError).length ≤ us.length :=
          fun us => (List.dropWhile_suffix _).length_le
        refine readsBody_block limits shape opened closes (by omega) ?_ fun reports => ?_
        · exact ih _ (Nat.lt_of_le_of_lt (fewer inner) (by omega)) inner_orderly.usable (by omega)
            (show s.nesting + 1 + room ≤ limits.nesting by omega) (Nat.succ_ne_zero _) closes
            (settled_facing _ _) rfl
        · exact ih _ (Nat.lt_of_le_of_lt (fewer more) (by omega)) later.usable levels nests inside
            closed (settled_facing _ _) rfl
    | @faulty room errors begun next passed opener more lexical breaks usable flat led opens later =>
      cases errors with
      | cons error errors =>
        exact absurd (lexical error List.mem_cons_self) (here error (by rw [shape]; rfl))
      | nil =>
        have split : s.rest = (begun ++ next :: passed) ++ opener :: more := by rw [shape]; simp
        refine readsBody_faulty limits split here breaks usable nests flat led opens
          fun s' follows left => ?_
        have shorter : s'.rest.length < s.rest.length := by
          rw [left, split]
          simp only [List.length_append, List.length_cons]
          omega
        have settled : Settled s' := by
          rw [Settled, left]
          refine clear_cons (fun sort => ?_) more
          rw [sort] at opens
          cases opens
        exact ih _ shorter (by rwa [left]) levels (by rwa [follows.nesting])
          (by rwa [follows.blocks]) (by rwa [follows.finish]) settled rfl

end Scriptlet.Parse
