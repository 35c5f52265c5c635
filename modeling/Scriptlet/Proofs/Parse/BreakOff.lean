import Scriptlet.Proofs.Parse.Recovery

/-! Statements that break off. Where a statement has begun and the next token can neither go
on with it nor end it, the statement is abandoned there, or before it for want of levels of
recursion, whatever follows. The recovery then passes the token at fault, which is not behind
that one, and goes on to the next token that opens a statement. So a block that comes after
such a token keeps its first brace. -/
namespace Scriptlet.Grammar
open Parse Parse.State

/-- Kinds of tokens that begin neither a statement nor an expression. -/
def strays : List Kind :=
  [.rightParen, .question, .colon, .equal, .andWord, .classWord, .elseWord, .forWord, .funWord,
    .ifWord, .orWord, .returnWord, .superWord, .thisWord, .whileWord]

private theorem unread_of_stray {t : Token} (stray : t.kind ∈ strays) :
    leader? t = none ∧ isUnaryOperator t.kind = false ∧ opening? t = none := by
  cases sort : t.kind <;> rw [sort] at stray <;>
    first
    | exact absurd stray (by decide)
    | simp [leader?, isUnaryOperator, opening?, operandRule?, sort]

/-- A statement that has begun with these tokens does not go on with the next one, and does not
end at it; the number bounds how deep the expression before it is nested. -/
inductive BreaksOff (room : Nat) (next : Token) : List Token → Prop
  /-- An expression should start. -/
  | unopened {before make} (lead : Lead before make) (fits : 0 < room)
      (stray : next.kind ∈ strays) : BreaksOff room next before
  /-- An expression should go on, or its statement end. -/
  | unfinished {before make ts e} (lead : Lead before make) (source : Derives .expression ts e)
      (fits : e.nesting < room) (apart : joins? next.kind = none)
      (other : next.kind ≠ .semicolon) : BreaksOff room next (before ++ ts)
  /-- A name should be declared. -/
  | unnamed {var} (word : var.kind = .varWord) (other : next.kind ≠ .identifier) :
      BreaksOff room next [var]
  /-- A declaration should have its value, or end. -/
  | unvalued {var name} (word : var.kind = .varWord) (sort : name.kind = .identifier)
      (unsigned : next.kind ≠ .equal) (other : next.kind ≠ .semicolon) :
      BreaksOff room next [var, name]

/-- The nesting has room for so many more levels, and this token comes next. -/
def Before (limit room : Nat) (next : Token) (s : State) (rest : List Token) : Prop :=
  s.nesting + room ≤ limit ∧ ∃ more, rest = next :: more

/-- In every context that fits, the parser is abandoned at the same place, for the same reason
and behind the same reports. -/
def Faulty {α : Type} (context : State → List Token → Prop) (p : Parser α)
    (ts : List Token) : Prop :=
  Abandons .reported context p ts ∨ Abandons .tooDeep context p ts

namespace Faulty
variable {α β : Type} {p : Parser α} {f : α → Parser β} {ts us : List Token} {a : α}
  {P Q : State → List Token → Prop}

theorem first (faulty : Faulty P p ts) (context : ∀ s rest, Q s rest → P s rest) :
    Faulty Q (p >>= f) ts := by
  rw [← List.append_nil ts]
  exact faulty.imp (·.bind context) (·.bind context)

theorem behind {q : Parser α} (second : Faulty Q p us)
    (began : ∀ s rest, Q s rest → q (s.facing (ts ++ us ++ rest)) = p (s.facing (us ++ rest))) :
    Faulty Q q (ts ++ us) := by
  have quiet : ∀ s rest, Q s rest →
      q (s.facing (ts ++ us ++ rest)) = p ((reporting [] s).facing (us ++ rest)) := began
  exact second.imp (·.behind quiet fun _ _ fits => fits) (·.behind quiet fun _ _ fits => fits)

theorem congr {q : Parser α} (faulty : Faulty Q p ts)
    (same : ∀ s rest, Q s rest → q (s.facing (ts ++ rest)) = p (s.facing (ts ++ rest))) :
    Faulty Q q ts := by
  rw [← List.nil_append ts]
  exact faulty.behind same

theorem after (settles : Settles P p ts a) (second : Faulty Q (f a) us)
    (context : ∀ s rest, Q s rest → P s (us ++ rest)) : Faulty Q (p >>= f) (ts ++ us) := by
  rcases settles with reads | exhausts
  · refine second.behind fun s rest fits => ?_
    rw [List.append_assoc]
    exact bind_of_ok (reads s (us ++ rest) (context s rest fits))
  · exact .inr (exhausts.bind context)

theorem step (settles : Settles (fun _ _ => True) p ts a) (second : Faulty Q (f a) us) :
    Faulty Q (p >>= f) (ts ++ us) :=
  after settles second fun _ _ _ => trivial

theorem last (settles : Settles P p ts a) (second : Faulty Q (f a) [])
    (context : ∀ s rest, Q s rest → P s rest) : Faulty Q (p >>= f) ts := by
  rw [← List.append_nil ts]
  exact after settles second context

theorem nested {limit : Nat} (inside : Faulty P p ts)
    (context : ∀ s rest, Q s rest → s.nesting + 1 ≤ limit ∧ P s.deeper rest) :
    Faulty Q (Parse.nested limit p) ts :=
  inside.imp (·.nested context) (·.nested context)

end Faulty

theorem Lead.faulty {before ts : List Token} {make : Expr → Stmt} (lead : Lead before make)
    {limits : Limits} {depth : Nat} {Q : State → List Token → Prop}
    (value : ∀ fault, Faulty Q (upToSemicolon limits depth fault make) ts)
    (unled : ∀ s rest, Q s rest → Unled (ts ++ rest)) :
    Faulty Q (statement limits (depth + 1)) (before ++ ts) := by
  obtain ⟨fault, starts⟩ := lead.statement_eq limits depth
  refine (value fault).behind fun s rest fits => ?_
  rw [List.append_assoc]
  exact starts s _ (unled s rest fits)

theorem Lead.clear {before : List Token} {make : Expr → Stmt} (lead : Lead before make)
    {rest : List Token} (clear : Clear rest) : Clear (before ++ rest) := by
  cases lead with
  | alone => exact clear
  | print word => exact clear_cons (by rw [word]; decide) _
  | value word _ _ => exact clear_cons (by rw [word]; decide) _

section Next
variable {α : Type} {next : Token} (usable : next.kind ≠ .error)
include usable

private theorem faulty_fail {Q : State → List Token → Prop} (fault : Fault)
    (shows : ∀ s rest, Q s rest → ∃ more, rest = next :: more) :
    Faulty Q (fail fault : Parser α) [] := by
  refine .inl ⟨[.atToken next fault], [], List.suffix_refl _, fun s rest fits => ?_⟩
  obtain ⟨more, rfl⟩ := shows s rest fits
  rw [List.nil_append, facing_cons _ usable, facing_cons _ usable]
  rfl

private theorem faulty_expect {Q : State → List Token → Prop} {kind : Kind} (other : next.kind ≠ kind)
    (fault : Fault) (shows : ∀ s rest, Q s rest → ∃ more, rest = next :: more) :
    Faulty Q (expect kind fault) [] := by
  refine (faulty_fail usable fault shows).congr fun s rest fits => ?_
  obtain ⟨more, rfl⟩ := shows s rest fits
  exact bind_of_ok (accept?_refused (forall_upcoming usable (beq_eq_false_iff_ne.2 other) more))

private theorem faulty_rule (stray : next.kind ∈ strays) (limit depth : Nat) (r : Rule) :
    Faulty (Before limit (entry r) next) (rule limit depth r) [] := by
  obtain ⟨-, unsigned, unopened⟩ := unread_of_stray stray
  induction depth generalizing r with
  | zero => exact .inr (.here (fun _ => rfl) [])
  | succ depth ih =>
    cases r with
    | expression => exact (ih .comma).nested fun s rest fits => ⟨fits.1, fits⟩
    | comma => exact (ih .assignment).first fun _ _ fits => fits
    | equality => exact (ih .comparison).first fun _ _ fits => fits
    | comparison => exact (ih .term).first fun _ _ fits => fits
    | term => exact (ih .factor).first fun _ _ fits => fits
    | factor => exact (ih .unary).first fun _ _ fits => fits
    | assignment => exact (ih .ternary).first fun _ _ fits => fits
    | ternary => exact (ih .equality).first fun _ _ fits => fits
    | unary =>
      refine (ih .primary).congr fun s rest fits => ?_
      obtain ⟨-, more, rfl⟩ := fits
      exact bind_of_ok
        (takeAt?_refused (forall_upcoming usable (ifKind_eq_none.2 unsigned) more))
    | primary =>
      refine .congr (faulty_fail usable .expectedExpression fun _ _ fits => fits.2)
        fun s rest fits => ?_
      obtain ⟨-, more, rfl⟩ := fits
      exact bind_of_ok (takeAt?_refused (forall_upcoming usable unopened more))

theorem BreaksOff.faulty {room : Nat} {ts : List Token} (breaks : BreaksOff room next ts)
    (limits : Limits) (depth : Nat) :
    Faulty (Before limits.nesting room next) (statement limits depth) ts := by
  cases depth with
  | zero => exact .inr (.here (fun _ => rfl) ts)
  | succ depth =>
    cases breaks with
    | unopened lead fits stray =>
      have value := faulty_rule usable stray limits.nesting depth .expression
      rw [← List.append_nil ts]
      refine lead.faulty (fun fault => value.first fun s rest room => ⟨?_, room.2⟩) ?_
      · exact Nat.le_trans (Nat.add_le_add_left fits _) room.1
      · rintro s rest ⟨-, more, rfl⟩
        exact forall_upcoming usable (unread_of_stray stray).1 more
    | unfinished lead source fits apart other =>
      refine lead.faulty (fun fault => ?_) fun s rest _ => unled_of_derives source rest
      refine .last (settles_rule source depth)
        (.first (faulty_expect usable other fault fun _ _ room => room.2) fun _ _ room => room) ?_
      rintro s rest ⟨room, more, rfl⟩
      refine ⟨?_, closes_cons rfl usable (fun j joined => ?_) more⟩
      · exact Nat.le_trans (Nat.add_le_add_left fits _) room
      · rw [apart] at joined
        cases joined
    | @unnamed var word other =>
      have leads : leader? var = some .declaration := by simp [leader?, word]
      exact .step (Settles.take? (by rw [word]; decide) leads)
        (.first (faulty_expect usable other _ fun _ _ room => room.2) fun _ _ room => room)
    | @unvalued var name word sort unsigned other =>
      have leads : leader? var = some .declaration := by simp [leader?, word]
      exact .step (Settles.take? (by rw [word]; decide) leads)
        (.step (Settles.expect sort (by decide) _)
          (.last (settles_uninitialized usable unsigned)
            (.first (faulty_expect usable other _ fun _ _ room => room.2) fun _ _ room => room)
            fun _ _ room => room.2))

theorem BreaksOff.clear {room : Nat} {ts : List Token} (breaks : BreaksOff room next ts)
    (rest : List Token) : Clear (ts ++ next :: rest) := by
  cases breaks with
  | unopened lead _ _ => exact lead.clear (clear_cons usable rest)
  | unfinished lead source _ _ _ =>
    rw [List.append_assoc]
    exact lead.clear (clear_of_derives source _)
  | unnamed word _ => exact clear_cons (by rw [word]; decide) _
  | unvalued word _ _ _ => exact clear_cons (by rw [word]; decide) _

end Next

end Scriptlet.Grammar

namespace Scriptlet.Parse
open State Grammar Horizon

section Recovered
variable {limits : Limits} {depth room : Nat} {s : State} {us vs : List Token} {next : Token}

private theorem placed_of_abandons {α : Type} {abort : Abort} {p : Parser α}
    (abandons : Abandons abort (Before limits.nesting room next) p us)
    (usable : next.kind ≠ .error) (shape : s.rest = us ++ next :: vs) (here : Settled s)
    (nests : s.nesting + room ≤ limits.nesting) :
    ∃ s', s'.rest ≠ [] ∧ Follows s s' ∧
      ∀ h : Horizon, p (h.place s) = .error abort (h.place s') := by
  obtain ⟨faults, left, inside, ran⟩ := abandons
  refine ⟨(reporting faults s).facing (left ++ next :: vs), ?_, ⟨?_, rfl, rfl, rfl⟩, fun h => ?_⟩
  · rw [facing_rest, dropWhile_append_cons usable]
    simp
  · obtain ⟨taken, rfl⟩ := inside
    rw [shape]
    exact (List.dropWhile_suffix _).trans ⟨taken, by simp⟩
  · have same : h.place s = (h.place s).facing (us ++ next :: (vs ++ h.tokens)) := by
      have whole := place_facing h s s.rest
      rw [show s.facing s.rest = s from settled_eq_self here, shape] at whole
      rw [← List.cons_append, ← List.append_assoc]
      exact whole
    rw [same, ran (h.place s) _ ⟨nests, _, rfl⟩, place_facing, List.append_assoc]
    simp only [reporting, place, List.append_assoc, List.cons_append]

/-- The recovery from a statement that breaks off uses up what is left of a stretch in which
nothing else could stop it, and goes on where the next statement is opened. -/
theorem recovered_faulty
    (faulty : Faulty (Before limits.nesting room next) (statement limits depth) us)
    (usable : next.kind ≠ .error) (shape : s.rest = us ++ next :: vs) (here : Settled s)
    (nests : s.nesting + room ≤ limits.nesting)
    (flat : ∀ t ∈ s.rest, t.kind ≠ .semicolon ∧ t.kind ≠ .rightBrace)
    (led : ∀ t ∈ s.rest.tail, t.kind.startsStatement = false) :
    ∃ s', s'.rest = [] ∧ Follows s s' ∧ ∀ h : Horizon, h.Halts s.blocks →
      recovered (statement limits depth) (h.place s) = (none, h.place s') := by
  have used_up : ∀ middle, Follows s middle → middle.synchronized.rest = [] := by
    intro middle follows
    refine rest_synchronized (fun t member => (flat t (follows.rest.subset member)).1)
      (fun t member => led t (tail_subset_of_suffix follows.rest member)) fun t member brace => ?_
    exact absurd brace (flat t (follows.rest.subset member)).2
  rcases faulty with stops | stops
  · obtain ⟨middle, some_token, follows, ran⟩ := placed_of_abandons stops usable shape here nests
    refine ⟨middle.synchronized, used_up middle follows,
      law_follows.trans follows (law_follows.synchronized middle), fun h halts => ?_⟩
    rw [← follows.blocks] at halts
    rw [recovered, ran h]
    exact congrArg (Prod.mk none) (synchronized_inside halts some_token)
  · obtain ⟨middle, some_token, follows, ran⟩ := placed_of_abandons stops usable shape here nests
    have told := law_follows.trans follows (law_follows.reportNext middle .tooDeep)
    refine ⟨(middle.report middle.next .tooDeep).synchronized, used_up _ told,
      law_follows.trans told (law_follows.synchronized _), fun h halts => ?_⟩
    rw [← follows.blocks] at halts
    rw [recovered, ran h]
    dsimp only
    rw [next_inside some_token, place_report]
    exact congrArg (Prod.mk none)
      (synchronized_inside (s := middle.report _ _) halts some_token)

end Recovered

end Scriptlet.Parse
