import Scriptlet.Parse.Statement

/-! Elementary steps of the parser, seen from two sides. Forwards: from a state
that faces some tokens, a step that takes them leads to the state that faces the
rest, whatever the rest is. Backwards: a run that ends without any report has
only passed tokens, none of them of kind error. -/
namespace Scriptlet.Parse

section Monad
variable {α β : Type} {p : Parser α} {f : α → Parser β} {s s' : State} {b : β}

theorem bind_of_ok {a : α} (ran : p s = .ok a s') : (p >>= f) s = f a s' := by
  change EStateM.bind p f s = f a s'
  simp only [EStateM.bind, ran]

theorem bind_of_error {abort : Abort} (ran : p s = .error abort s') :
    (p >>= f) s = .error abort s' := by
  change EStateM.bind p f s = _
  simp only [EStateM.bind, ran]

theorem ok_of_bind (ran : (p >>= f) s = .ok b s') :
    ∃ a middle, p s = .ok a middle ∧ f a middle = .ok b s' := by
  change EStateM.bind p f s = _ at ran
  unfold EStateM.bind at ran
  cases first : p s with
  | ok a middle => rw [first] at ran; exact ⟨a, middle, rfl, ran⟩
  | error abort middle => rw [first] at ran; cases ran

theorem error_of_bind {abort : Abort} (ran : (p >>= f) s = .error abort s') :
    p s = .error abort s' ∨ ∃ a middle, p s = .ok a middle ∧ f a middle = .error abort s' := by
  change EStateM.bind p f s = _ at ran
  unfold EStateM.bind at ran
  cases first : p s with
  | ok a middle => rw [first] at ran; exact .inr ⟨a, middle, rfl, ran⟩
  | error abort middle => rw [first] at ran; cases ran; exact .inl rfl

end Monad

namespace State

/-- The state with other tokens to come, those of kind error in front of them
being reported and passed. -/
def facing (s : State) (tokens : List Token) : State := settled { s with rest := tokens }

def deeper (s : State) : State := { s with nesting := s.nesting + 1 }

def inner (s : State) : State := { s with blocks := s.blocks + 1 }

theorem facing_cons (s : State) {t : Token} (usable : t.kind ≠ .error) (rest : List Token) :
    s.facing (t :: rest) = { s with rest := t :: rest } := by
  simp [facing, settled, isLexicalError, usable]

@[simp] theorem facing_nesting (s : State) (tokens : List Token) :
    (s.facing tokens).nesting = s.nesting := rfl

theorem facing_rest (s : State) (tokens : List Token) :
    (s.facing tokens).rest = tokens.dropWhile isLexicalError := rfl

end State

open State

/-- The first token that is not of kind error. -/
def upcoming? (tokens : List Token) : Option Token := (tokens.dropWhile isLexicalError).head?

theorem upcoming?_cons {t : Token} (usable : t.kind ≠ .error) (rest : List Token) :
    upcoming? (t :: rest) = some t := by
  simp [upcoming?, isLexicalError, usable]

theorem forall_upcoming {t : Token} {P : Token → Prop} (usable : t.kind ≠ .error) (holds : P t)
    (rest : List Token) : ∀ u, upcoming? (t :: rest) = some u → P u := by
  intro u next
  rw [upcoming?_cons usable] at next
  cases next
  exact holds

def Clear (tokens : List Token) : Prop := ∀ t, tokens.head? = some t → t.kind ≠ .error

theorem clear_cons {t : Token} (usable : t.kind ≠ .error) (rest : List Token) :
    Clear (t :: rest) := by
  intro u next
  cases next
  exact usable

private theorem errorBehind?_facing {t : Token} (usable : t.kind ≠ .error) {rest : List Token}
    (clear : Clear rest) (s : State) : (s.facing (t :: rest)).errorBehind? = none := by
  rw [facing_cons s usable]
  exact Option.filter_eq_none_iff.2 fun u next => by simpa [isLexicalError] using clear u next

theorem take?_facing {α : Type} {test : Token → Option α} {t : Token} {a : α}
    (usable : t.kind ≠ .error) (passes : test t = some a) (s : State) (rest : List Token) :
    take? test (s.facing (t :: rest)) = .ok (some a) (s.facing rest) := by
  rw [facing_cons s usable]
  simp [take?, passes, advanced, facing]

theorem take?_refused {α : Type} {test : Token → Option α} {s : State} {rest : List Token}
    (refused : ∀ t, upcoming? rest = some t → test t = none) :
    take? test (s.facing rest) = .ok none (s.facing rest) := by
  unfold take?
  rw [facing_rest]
  unfold upcoming? at refused
  cases shape : rest.dropWhile isLexicalError with
  | nil => rfl
  | cons t more => simp only [refused t (by rw [shape]; rfl)]

section Levels
variable {α : Type} {levels : Nat} {test : Token → Option α} {s s' : State} {found : Option α}

theorem takeAt?_eq (levels : Nat) (test : Token → Option α) (s : State) :
    takeAt? levels test s =
      if levels = 0 ∧ s.errorBehind?.isSome ∧ (s.rest.head?.bind test).isSome then .error .overrun s
      else take? test s := by
  change (if _ then throw Abort.overrun else take? test : Parser (Option α)) s = _
  split <;> rfl

private theorem takeAt?_clear (clear : s.errorBehind? = none) : takeAt? levels test s = take? test s := by
  rw [takeAt?_eq, clear]
  exact if_neg (by simp)

theorem takeAt?_facing {t : Token} {a : α} (usable : t.kind ≠ .error) (passes : test t = some a)
    (s : State) {rest : List Token} (clear : Clear rest) :
    takeAt? levels test (s.facing (t :: rest)) = .ok (some a) (s.facing rest) :=
  (takeAt?_clear (errorBehind?_facing usable clear s)).trans (take?_facing usable passes s rest)

theorem takeAt?_refused {rest : List Token} (refused : ∀ t, upcoming? rest = some t → test t = none) :
    takeAt? levels test (s.facing rest) = .ok none (s.facing rest) := by
  have nothing : (s.facing rest).rest.head?.bind test = none :=
    Option.bind_eq_none_iff.2 refused
  rw [takeAt?_eq, nothing]
  exact (if_neg (by simp)).trans (take?_refused refused)

theorem take?_of_takeAt? (ran : takeAt? levels test s = .ok found s') :
    take? test s = .ok found s' := by
  rw [takeAt?_eq] at ran
  split at ran
  · cases ran
  · exact ran

end Levels

theorem accept?_facing {test : Kind → Bool} {t : Token} (usable : t.kind ≠ .error)
    (passes : test t.kind = true) (s : State) (rest : List Token) :
    accept? test (s.facing (t :: rest)) = .ok (some t) (s.facing rest) :=
  take?_facing usable (ifKind_eq_some.2 ⟨passes, rfl⟩) s rest

theorem accept?_refused {test : Kind → Bool} {s : State} {rest : List Token}
    (refused : ∀ t, upcoming? rest = some t → test t.kind = false) :
    accept? test (s.facing rest) = .ok none (s.facing rest) :=
  take?_refused fun t next => ifKind_eq_none.2 (refused t next)

theorem expect_facing {t : Token} {kind : Kind} (sort : t.kind = kind) (usable : kind ≠ .error)
    (fault : Fault) (s : State) (rest : List Token) :
    expect kind fault (s.facing (t :: rest)) = .ok t (s.facing rest) := by
  unfold expect
  rw [bind_of_ok (accept?_facing (by rw [sort]; exact usable) (by simp [sort]) s rest)]
  rfl

section Bracket
variable {α : Type} {limit : Nat} {enter leave : State → State} {body : Parser α} {s s' : State}
  {a : α} {abort : Abort}

theorem bracket_ok (ran : body (enter s) = .ok a s') :
    bracket enter leave body s = .ok a (leave s') := by
  unfold bracket
  rw [ran]

theorem bracket_error (ran : body (enter s) = .error abort s') :
    bracket enter leave body s = .error abort (leave s') := by
  unfold bracket
  rw [ran]

private theorem ok_of_bracket (ran : bracket enter leave body s = .ok a s') :
    ∃ after, body (enter s) = .ok a after ∧ s' = leave after := by
  cases inside : body (enter s) with
  | ok b after =>
    rw [bracket_ok inside] at ran
    cases ran
    exact ⟨after, rfl, rfl⟩
  | error abort after =>
    rw [bracket_error inside] at ran
    cases ran

theorem nested_ok (room : s.nesting + 1 ≤ limit) (ran : body s.deeper = .ok a s') :
    nested limit body s = .ok a { s' with nesting := s'.nesting - 1 } :=
  bracket_ok ((if_neg (Nat.not_lt.2 room)).trans ran)

theorem nested_error (room : s.nesting + 1 ≤ limit) (ran : body s.deeper = .error abort s') :
    nested limit body s = .error abort { s' with nesting := s'.nesting - 1 } :=
  bracket_error ((if_neg (Nat.not_lt.2 room)).trans ran)

theorem ok_of_nested (ran : nested limit body s = .ok a s') :
    s.nesting + 1 ≤ limit ∧
      ∃ after, body s.deeper = .ok a after ∧ s' = { after with nesting := after.nesting - 1 } := by
  obtain ⟨after, inside, left⟩ := ok_of_bracket ran
  split at inside
  · cases inside
  · rename_i room
    exact ⟨Nat.not_lt.1 room, after, inside, left⟩

theorem inBlock_ok (ran : body s.inner = .ok a s') :
    inBlock body s = .ok a { s' with blocks := s'.blocks - 1 } :=
  bracket_ok ran

theorem ok_of_inBlock (ran : inBlock body s = .ok a s') :
    ∃ after, body s.inner = .ok a after ∧ s' = { after with blocks := after.blocks - 1 } :=
  ok_of_bracket ran

end Bracket

/-- A run without any report took exactly these tokens. -/
structure Passed (s : State) (tokens : List Token) (s' : State) : Prop where
  quiet : s.reports = []
  split : s.rest = tokens ++ s'.rest
  frame : s' = { s with rest := s'.rest }

namespace Passed
variable {s s₁ s' : State} {ts us : List Token}

theorem refl (quiet : s.reports = []) : Passed s [] s := ⟨quiet, rfl, rfl⟩

theorem trans (first : Passed s ts s₁) (second : Passed s₁ us s') : Passed s (ts ++ us) s' := by
  refine ⟨first.quiet, ?_, ?_⟩
  · rw [first.split, second.split, List.append_assoc]
  · rw [second.frame, first.frame]

theorem nesting (passed : Passed s ts s') : s'.nesting = s.nesting := by rw [passed.frame]

theorem length (passed : Passed s ts s') : s.rest.length = ts.length + s'.rest.length := by
  rw [passed.split, List.length_append]

end Passed

private theorem passed_advanced {s : State} {t : Token} {more : List Token} (upcoming : s.rest = t :: more)
    (quiet : s.advanced.reports = []) : Passed s [t] s.advanced := by
  simp only [advanced, settled, upcoming, List.tail_cons, List.append_eq_nil_iff,
    List.reverse_eq_nil_iff, List.map_eq_nil_iff] at quiet
  have kept : more.dropWhile isLexicalError = more := by
    have whole := List.takeWhile_append_dropWhile (p := isLexicalError) (l := more)
    rwa [quiet.1, List.nil_append] at whole
  refine ⟨quiet.2, ?_, ?_⟩
  · simp only [advanced, settled, upcoming, List.tail_cons, kept, List.singleton_append]
  · simp only [advanced, settled, upcoming, List.tail_cons, kept, quiet.1, quiet.2, List.map_nil,
      List.reverse_nil, List.nil_append]

section Optional
variable {α : Type} {test : Token → Option α} {kinds : Kind → Bool} {s s' : State}

theorem eq_of_take?_none (ran : take? test s = .ok none s') : s' = s := by
  unfold take? at ran
  split at ran
  · cases ran; rfl
  · split at ran <;> cases ran
    rfl

theorem passed_of_take? {a : α} (ran : take? test s = .ok (some a) s') (quiet : s'.reports = []) :
    ∃ t, test t = some a ∧ Passed s [t] s' := by
  unfold take? at ran
  split at ran
  · cases ran
  · rename_i t more upcoming
    split at ran
    · cases ran
    · rename_i passes
      cases ran
      exact ⟨t, passes, passed_advanced upcoming quiet⟩

theorem eq_of_accept?_none (ran : accept? kinds s = .ok none s') : s' = s := eq_of_take?_none ran

theorem passed_of_accept? {t : Token} (ran : accept? kinds s = .ok (some t) s')
    (quiet : s'.reports = []) : kinds t.kind = true ∧ Passed s [t] s' := by
  obtain ⟨u, passes, passed⟩ := passed_of_take? ran quiet
  obtain ⟨sort, rfl⟩ := ifKind_eq_some.1 passes
  exact ⟨sort, passed⟩

end Optional

theorem passed_of_expect {kind : Kind} {fault : Fault} {s s' : State} {t : Token}
    (ran : expect kind fault s = .ok t s') (quiet : s'.reports = []) :
    t.kind = kind ∧ Passed s [t] s' := by
  obtain ⟨found, middle, ran, after⟩ := ok_of_bind ran
  cases found with
  | none => cases after
  | some u =>
    cases after
    obtain ⟨sort, passed⟩ := passed_of_accept? ran quiet
    exact ⟨by simpa using sort, passed⟩

end Scriptlet.Parse
