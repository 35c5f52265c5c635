import Scriptlet.Proofs.Grammar.Program

/-! What a run of the parser leaves as it was, and why its loops end. Tokens are
only ever taken from the front, and the nesting is given back. A declaration
takes at least one token, whether it makes a statement or not, so the bounds of
the loops play no part: any bound that covers the tokens at hand gives the same
run, and a loop is its first round followed by the loop. -/
namespace Scriptlet.Parse
open State Grammar

/-- A state that a run can lead to. -/
structure Follows (s s' : State) : Prop where
  rest : s'.rest <:+ s.rest
  finish : s'.finish = s.finish
  nesting : s'.nesting = s.nesting
  blocks : s'.blocks = s.blocks

theorem Follows.length {s s' : State} (follows : Follows s s') : s'.rest.length ≤ s.rest.length :=
  follows.rest.length_le

theorem follows_advanced (s : State) : Follows s s.advanced where
  rest := (List.dropWhile_suffix _).trans (List.tail_suffix _)
  finish := rfl
  nesting := rfl
  blocks := rfl

theorem follows_overrun {s : State} {t e : Token} {more : List Token}
    (upcoming : s.rest = t :: e :: more) (sort : e.kind = .error) :
    Follows s (s.overrun e more) where
  rest := by
    rw [rest_overrun upcoming sort]
    exact (follows_advanced s).rest
  finish := rfl
  nesting := rfl
  blocks := rfl

theorem law_follows : Law Follows where
  refl _ := ⟨List.suffix_refl _, rfl, rfl, rfl⟩
  trans first second :=
    ⟨second.rest.trans first.rest, second.finish.trans first.finish,
      second.nesting.trans first.nesting, second.blocks.trans first.blocks⟩
  advanced := follows_advanced
  overrun := follows_overrun
  report _ _ _ _ := ⟨List.suffix_refl _, rfl, rfl, rfl⟩
  reportNext _ _ := ⟨List.suffix_refl _, rfl, rfl, rfl⟩
  deeper inside := ⟨inside.rest, inside.finish, by simp [inside.nesting, deeper], inside.blocks⟩
  inner inside := ⟨inside.rest, inside.finish, inside.nesting, by simp [inside.blocks, State.inner]⟩

theorem follows_stopped (s : State) : Follows s s.stopped := by
  unfold State.stopped
  split
  · exact law_follows.refl s
  · exact ⟨List.tail_suffix _, rfl, rfl, rfl⟩

/-- The next token is not one of kind error. -/
def Settled (s : State) : Prop := Clear s.rest

theorem usable_of_dropWhile {ts : List Token} {t : Token}
    (head : (ts.dropWhile isLexicalError).head? = some t) : t.kind ≠ .error := by
  have stopped := List.head?_dropWhile_not isLexicalError ts
  rw [head] at stopped
  simpa [isLexicalError] using stopped

theorem dropWhile_append_cons {ts : List Token} {t : Token} (usable : t.kind ≠ .error)
    (more : List Token) :
    (ts ++ t :: more).dropWhile isLexicalError = ts.dropWhile isLexicalError ++ t :: more := by
  induction ts with
  | nil => simp [isLexicalError, usable]
  | cons u ts ih =>
    simp only [List.cons_append, List.dropWhile_cons, ih]
    split <;> rfl

theorem takeWhile_of_clear {ts : List Token} (clear : Clear ts) :
    ts.takeWhile isLexicalError = [] := by
  cases ts with
  | nil => rfl
  | cons t more =>
    have usable : t.kind ≠ .error := clear t rfl
    simp [isLexicalError, usable]

theorem dropWhile_of_clear {ts : List Token} (clear : Clear ts) :
    ts.dropWhile isLexicalError = ts := by
  cases ts with
  | nil => rfl
  | cons t more =>
    have usable : t.kind ≠ .error := clear t rfl
    simp [isLexicalError, usable]

theorem settled_facing (s : State) (ts : List Token) : Settled (s.facing ts) :=
  fun _ head => usable_of_dropWhile head

theorem settled_advanced (s : State) : Settled s.advanced := fun _ head => usable_of_dropWhile head

private theorem settled_overrun (s : State) (e : Token) (more : List Token) : Settled (s.overrun e more) :=
  fun _ head => usable_of_dropWhile head

theorem law_settled : Law fun s s' => Settled s → Settled s' where
  refl _ here := here
  trans first second here := second (first here)
  advanced s _ := settled_advanced s
  overrun _ _ _ := settled_overrun _ _ _
  report _ _ _ _ here := here
  reportNext _ _ here := here
  deeper inside here := inside here
  inner inside here := inside here

theorem settled_eq_self {s : State} (here : Settled s) : s.settled = s := by
  unfold State.settled
  rw [takeWhile_of_clear here, dropWhile_of_clear here]
  rfl

private theorem length_taken {α : Type} {test : Token → Option α} {a : α} {s s' : State}
    (took : take? test s = .ok (some a) s') : s'.rest.length < s.rest.length := by
  unfold take? at took
  split at took
  · cases took
  · rename_i upcoming
    split at took
    · cases took
    · cases took
      exact length_advanced upcoming

def Consumes {α : Type} (p : Parser α) : Prop :=
  ∀ s a s', p s = .ok a s' → s'.rest.length < s.rest.length

namespace Consumes
variable {α β : Type} {p : Parser α} {f : α → Parser β}

theorem first (consumes : Consumes p) (more : ∀ a, Keeps Follows (f a)) : Consumes (p >>= f) := by
  intro s b s' ran
  obtain ⟨a, middle, began, ended⟩ := ok_of_bind ran
  have later := (more a middle).length
  rw [ended] at later
  exact Nat.lt_of_le_of_lt later (consumes s a middle began)

theorem later (kept : Keeps Follows p) (more : ∀ a, Consumes (f a)) : Consumes (p >>= f) := by
  intro s b s' ran
  obtain ⟨a, middle, began, ended⟩ := ok_of_bind ran
  have sooner := (kept s).length
  rw [began] at sooner
  exact Nat.lt_of_lt_of_le (more a middle b s' ended) sooner

theorem expect (kind : Kind) (fault : Fault) : Consumes (Parse.expect kind fault) := by
  intro s t s' ran
  obtain ⟨found, middle, took, ended⟩ := ok_of_bind ran
  cases found with
  | none => cases ended
  | some u =>
    cases ended
    exact length_taken took

theorem ended (kind : Kind) (fault : Fault) (a : α) :
    Consumes (Parse.expect kind fault >>= fun _ => Pure.pure a) :=
  (expect kind fault).first fun _ => law_follows.pure a

end Consumes

theorem keeps_rule (limit depth : Nat) (r : Rule) : Keeps Follows (rule limit depth r) :=
  law_follows.closed.rule limit depth r

theorem Closed.initializer {P : ∀ {α : Type}, Parser α → Prop} (closed : Closed P)
    (limits : Limits) (depth : Nat) : P (Parse.initializer limits depth) := by
  refine closed.bind (closed.accept? _) fun found => ?_
  cases found with
  | none => exact closed.pure none
  | some equals => exact closed.bind (closed.rule _ _ _) fun value => closed.pure _

theorem keeps_statement (limits : Limits) (depth : Nat) :
    Keeps Follows (statement limits depth) :=
  law_follows.closed.statement limits depth

private theorem consumes_statement (limits : Limits) (depth : Nat) :
    Consumes (statement limits depth) := by
  cases depth with
  | zero => intro s made s' ran; cases ran
  | succ depth =>
    refine Consumes.later (law_follows.take? _) fun found => ?_
    cases found with
    | none => exact .later (keeps_rule _ _ _) fun value => .ended _ _ _
    | some leader =>
      cases leader with
      | declaration =>
        exact .later (law_follows.closed.expect _ _) fun name =>
          .later (law_follows.closed.initializer _ _) fun value => .ended _ _ _
      | output => exact .later (keeps_rule _ _ _) fun value => .ended _ _ _
      | block =>
        exact .later (law_follows.nested (law_follows.closed.block (keeps_statement _ _)))
          fun body => .ended _ _ _

private theorem length_synchronized {s : State} (more : s.rest ≠ []) (going : s.atBlockEnd = false) :
    s.synchronized.rest.length < s.rest.length := by
  unfold State.synchronized
  split
  · contradiction
  · rename_i t later upcoming
    rw [going, if_neg Bool.false_ne_true]
    exact Nat.lt_of_le_of_lt (law_follows.seek s.advanced t).length (length_advanced upcoming)

/-- A declaration takes a token, unless it starts at the end or where a block ends. -/
private theorem length_recovered (limits : Limits) (depth : Nat) {s : State} (more : s.rest ≠ [])
    (going : s.atBlockEnd = false) :
    (recovered (statement limits depth) s).2.rest.length < s.rest.length := by
  have kept := keeps_statement limits depth s
  -- a fault before the first token is taken leaves that token to the recovery
  have passed : ∀ middle : State, Follows s middle →
      middle.synchronized.rest.length < s.rest.length := by
    intro middle follows
    rcases Nat.lt_or_ge middle.rest.length s.rest.length with less | same
    · exact Nat.lt_of_le_of_lt (law_follows.synchronized middle).length less
    · have here : middle.rest = s.rest := follows.rest.eq_of_length_le same
      have still : middle.atBlockEnd = false := by
        rw [← going]
        simp only [State.atBlockEnd, State.sees, here, follows.blocks]
      rw [← here]
      exact length_synchronized (by rwa [here]) still
  unfold recovered
  split
  · rename_i made middle ran
    exact consumes_statement limits depth s made middle ran
  · rename_i middle ran
    rw [ran] at kept
    exact passed middle kept
  · rename_i middle ran
    rw [ran] at kept
    exact passed _ (law_follows.trans kept (law_follows.reportNext middle .tooDeep))
  · rename_i middle ran
    rw [ran] at kept
    have stands := law_follows.trans kept (follows_stopped middle)
    exact passed _ (law_follows.trans stands (law_follows.reportNext middle.stopped .tooDeep))

section Chains
variable {operand : Parser Expr} {isOperator : Kind → Bool} {build : Expr → Token → Expr → Expr}

private theorem accept?_nil {s : State} (empty : s.rest = []) (kinds : Kind → Bool) :
    accept? kinds s = .ok none s := by
  unfold accept? take?
  rw [empty]

private theorem extend_nil {s : State} (empty : s.rest = []) (bound : List Token) (left : Expr) :
    extend operand isOperator build bound left s = .ok left s := by
  cases bound with
  | nil => rfl
  | cons t bound => exact bind_of_ok (accept?_nil empty isOperator)

theorem extend_bound (kept : Keeps Follows operand) {s : State} {bound bound' : List Token}
    (covers : s.rest.length ≤ bound.length) (covers' : s.rest.length ≤ bound'.length)
    (left : Expr) :
    extend operand isOperator build bound left s =
      extend operand isOperator build bound' left s := by
  induction bound generalizing bound' s left with
  | nil =>
    have empty := List.eq_nil_of_length_eq_zero (Nat.le_zero.1 covers)
    rw [extend_nil empty, extend_nil empty]
  | cons t bound ih =>
    cases bound' with
    | nil =>
      have empty := List.eq_nil_of_length_eq_zero (Nat.le_zero.1 covers')
      rw [extend_nil empty, extend_nil empty]
    | cons t' bound' =>
      unfold extend
      cases took : accept? isOperator s with
      | error abort middle => rw [bind_of_error took, bind_of_error took]
      | ok found middle =>
        rw [bind_of_ok took, bind_of_ok took]
        cases found with
        | none => rfl
        | some operator =>
          have shorter := length_taken took
          dsimp only
          cases ran : operand middle with
          | error abort after => rw [bind_of_error ran, bind_of_error ran]
          | ok right after =>
            have later := (kept middle).length
            rw [ran] at later
            rw [bind_of_ok ran, bind_of_ok ran]
            simp only [List.length_cons] at covers covers'
            exact ih (Nat.le_trans later (by omega)) (Nat.le_trans later (by omega)) _

end Chains

structure Progresses (declaration : State → Option Stmt × State) (ends : State → Bool)
    (stays : State → Prop) : Prop where
  finished : ∀ s, s.rest = [] → ends s = true
  shorter : ∀ s, stays s → ends s = false → (declaration s).2.rest.length < s.rest.length
  kept : ∀ s, stays s → stays (declaration s).2

theorem follows_recovered (limits : Limits) (depth : Nat) (s : State) :
    Follows s (recovered (statement limits depth) s).2 :=
  law_follows.recovered (keeps_statement limits depth) s

theorem progresses_body (limits : Limits) (depth : Nat) :
    Progresses (recovered (statement limits depth)) endsBody fun _ => True where
  finished s empty := by simp [endsBody, atEnd, empty]
  shorter s _ goes_on := by
    rw [endsBody, Bool.or_eq_false_iff] at goes_on
    refine length_recovered limits depth (fun empty => ?_) ?_
    · rw [atEnd, empty] at goes_on
      cases goes_on.1
    · rw [atBlockEnd, goes_on.2, Bool.and_false]
  kept _ _ := trivial

theorem progresses_declaration (limits : Limits) :
    Progresses (declaration limits) atEnd fun s => s.blocks = 0 where
  finished s empty := by simp [atEnd, empty]
  shorter s outside goes_on := by
    refine length_recovered limits limits.depth (fun empty => ?_) ?_
    · rw [atEnd, empty] at goes_on
      cases goes_on
    · simp [atBlockEnd, outside]
  kept s outside := (follows_recovered limits limits.depth s).blocks.trans outside

section Loops
variable {declaration : State → Option Stmt × State} {ends : State → Bool} {stays : State → Prop}
  {s : State}

/-- Every bound that covers the tokens at hand gives the same declarations. -/
theorem declarations_bound (progresses : Progresses declaration ends stays) (here : stays s)
    {bound bound' : List Token} (covers : s.rest.length ≤ bound.length)
    (covers' : s.rest.length ≤ bound'.length) :
    declarations declaration ends bound s = declarations declaration ends bound' s := by
  induction bound generalizing bound' s with
  | nil =>
    have empty := List.eq_nil_of_length_eq_zero (Nat.le_zero.1 covers)
    rw [declarations_ended (progresses.finished s empty),
      declarations_ended (progresses.finished s empty)]
  | cons t bound ih =>
    cases ended : ends s with
    | true => rw [declarations_ended ended, declarations_ended ended]
    | false =>
      have shorter := progresses.shorter s here ended
      cases bound' with
      | nil => exact absurd (Nat.lt_of_lt_of_le shorter covers') (Nat.not_lt_zero _)
      | cons t' bound' =>
        simp only [List.length_cons] at covers covers'
        have fewer : (declaration s).2.rest.length ≤ bound'.length := by omega
        have later := ih (progresses.kept s here) (by omega) fewer
        simp only [declarations, ended, Bool.false_eq_true, if_false, later]

def allDeclarations (declaration : State → Option Stmt × State) (ends : State → Bool) (s : State) :
    List Stmt × State :=
  declarations declaration ends s.rest s

theorem allDeclarations_ended (ended : ends s = true) :
    allDeclarations declaration ends s = ([], s) :=
  declarations_ended ended s.rest

theorem allDeclarations_next (progresses : Progresses declaration ends stays) (here : stays s)
    (goes_on : ends s = false) :
    allDeclarations declaration ends s =
      ((declaration s).1.toList ++ (allDeclarations declaration ends (declaration s).2).1,
        (allDeclarations declaration ends (declaration s).2).2) := by
  have shorter := progresses.shorter s here goes_on
  unfold allDeclarations
  cases upcoming : s.rest with
  | nil =>
    rw [progresses.finished s upcoming] at goes_on
    cases goes_on
  | cons t more =>
    rw [upcoming, List.length_cons] at shorter
    have covered := declarations_bound progresses (progresses.kept s here)
      (Nat.le_of_lt_succ shorter) (Nat.le_refl _)
    simp only [declarations, goes_on, Bool.false_eq_true, if_false, covered]

theorem ends_allDeclarations (progresses : Progresses declaration ends stays) (here : stays s) :
    ends (allDeclarations declaration ends s).2 = true := by
  induction n : s.rest.length using Nat.strongRecOn generalizing s with
  | ind n ih =>
    cases ended : ends s with
    | true => rwa [allDeclarations_ended ended]
    | false =>
      rw [allDeclarations_next progresses here ended]
      subst n
      exact ih _ (progresses.shorter s here ended) (progresses.kept s here) rfl

end Loops

end Scriptlet.Parse
