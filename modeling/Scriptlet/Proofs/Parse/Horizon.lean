import Scriptlet.Proofs.Grammar.Kinds
import Scriptlet.Proofs.Parse.Progress
import Scriptlet.Proofs.Parse.Renaming

/-! Parsing a stretch of tokens by itself. A parser that does not take the first
token behind a stretch runs on the stretch, with that token as its finish, just
as it runs where more tokens follow; and what was on record before never
matters. Expressions never take a token that ends or opens a statement, and with
nothing behind the stretch this holds of statements, blocks and recovery too. -/
namespace Scriptlet.Parse
open State Grammar

/-- What lies behind a stretch of tokens, and what was on record before it. -/
structure Horizon where
  tokens : List Token
  finish : Token
  reports : List Diagnostic
  usable : ∀ t, tokens.head? = some t → t.kind ≠ .error

namespace Horizon

def next (h : Horizon) : Token := h.tokens.headD h.finish

/-- A state in the stretch, seen in the whole. -/
def place (h : Horizon) (s : State) : State where
  rest := s.rest ++ h.tokens
  finish := h.finish
  reports := s.reports ++ h.reports
  nesting := s.nesting
  blocks := s.blocks

def placed {α : Type} (h : Horizon) :
    EStateM.Result Abort State α → EStateM.Result Abort State α
  | .ok a s => .ok a (h.place s)
  | .error abort s => .error abort (h.place s)

def Refuses {α : Type} (h : Horizon) (test : Token → Option α) : Prop :=
  ∀ t, h.tokens.head? = some t → test t = none

def Outside (h : Horizon) : Prop := ∀ t, h.tokens.head? = some t → inExpression t.kind = false

/-- The horizon is the end of the tokens, or of a block that is open. -/
def Closes (h : Horizon) (blocks : Nat) : Prop :=
  ∀ t, h.tokens.head? = some t → t.kind = .rightBrace ∧ blocks ≠ 0

/-- Once under way, the recovery goes no further than the horizon. -/
def Halts (h : Horizon) (blocks : Nat) : Prop :=
  ∀ t, h.tokens.head? = some t →
    t.kind.startsStatement = true ∨ t.kind = .rightBrace ∧ blocks ≠ 0

theorem Closes.halts {h : Horizon} {blocks : Nat} (closes : h.Closes blocks) : h.Halts blocks :=
  fun t head => .inr (closes t head)

section Steps
variable {h : Horizon} {s : State}

private theorem takeWhile_usable (h : Horizon) (ts : List Token) :
    (ts ++ h.tokens).takeWhile isLexicalError = ts.takeWhile isLexicalError := by
  induction ts with
  | nil => exact takeWhile_of_clear h.usable
  | cons t ts ih => simp only [List.cons_append, List.takeWhile_cons, ih]

private theorem dropWhile_usable (h : Horizon) (ts : List Token) :
    (ts ++ h.tokens).dropWhile isLexicalError = ts.dropWhile isLexicalError ++ h.tokens := by
  induction ts with
  | nil => exact dropWhile_of_clear h.usable
  | cons t ts ih =>
    simp only [List.cons_append, List.dropWhile_cons, ih]
    split <;> rfl

theorem place_settled (h : Horizon) (s : State) : (h.place s).settled = h.place s.settled := by
  simp only [settled, place, takeWhile_usable, dropWhile_usable, List.append_assoc]

theorem place_facing (h : Horizon) (s : State) (ts : List Token) :
    h.place (s.facing ts) = (h.place s).facing (ts ++ h.tokens) := by
  unfold facing
  rw [← place_settled]
  rfl

theorem place_advanced (more : s.rest ≠ []) : (h.place s).advanced = h.place s.advanced := by
  unfold advanced
  rw [← place_settled, place, List.tail_append_of_ne_nil more]
  rfl

theorem place_report (h : Horizon) (s : State) (t : Token) (fault : Fault) :
    (h.place s).report t fault = h.place (s.report t fault) := rfl

private theorem errorBehind?_place (more : s.rest ≠ []) :
    (h.place s).errorBehind? = s.errorBehind? := by
  unfold errorBehind? place
  match upcoming : s.rest with
  | [] => exact absurd upcoming more
  | [t] =>
    refine (Option.filter_eq_none_iff.2 fun u next => ?_).trans rfl
    simpa [isLexicalError] using h.usable u next
  | t :: u :: later => rfl

theorem stopped_place (shows : s.errorBehind?.isSome = true) :
    (h.place s).stopped = h.place s.stopped := by
  obtain ⟨e, found⟩ := Option.isSome_iff_exists.1 shows
  obtain ⟨t, more, upcoming, _⟩ := errorBehind?_eq_some found
  have some_token : s.rest ≠ [] := by simp [upcoming]
  unfold stopped
  rw [errorBehind?_place some_token, found]
  simp [place, List.tail_append_of_ne_nil some_token]

theorem next_place (meets : s.finish = h.next) : (h.place s).next = s.next := by
  unfold State.next place
  cases s.rest with
  | nil => exact meets.symm
  | cons t more => rfl

theorem next_inside (some_token : s.rest ≠ []) : (h.place s).next = s.next := by
  unfold State.next place
  cases upcoming : s.rest with
  | nil => exact absurd upcoming some_token
  | cons t more => rfl

theorem sees_place {kind : Kind} (apart : ∀ t, h.tokens.head? = some t → t.kind ≠ kind)
    (s : State) : (h.place s).sees kind = s.sees kind := by
  unfold sees place
  cases s.rest with
  | cons t more => rfl
  | nil =>
    dsimp only [List.nil_append]
    cases shape : h.tokens with
    | nil => rfl
    | cons t more => simp [apart t (by rw [shape]; rfl)]

end Steps

/-- A parse of the stretch is the parse of the whole, as far as the stretch goes. -/
def Local {α : Type} (h : Horizon) (p : Parser α) : Prop :=
  ∀ s, s.finish = h.next → p (h.place s) = h.placed (p s) ∧ (after (p s)).finish = h.next

namespace Local
variable {α β : Type} {h : Horizon}

theorem pure (a : α) : Local h (Pure.pure a) := fun _ meets => ⟨rfl, meets⟩

theorem tooDeep : Local h (throw .tooDeep : Parser α) := fun _ meets => ⟨rfl, meets⟩

theorem bind {p : Parser α} {f : α → Parser β} (first : Local h p) (more : ∀ a, Local h (f a)) :
    Local h (p >>= f) := by
  intro s meets
  have began := first s meets
  cases ran : p s with
  | ok a middle =>
    rw [ran] at began
    rw [bind_of_ok began.1, bind_of_ok ran]
    exact more a middle began.2
  | error abort middle =>
    rw [ran] at began
    rw [bind_of_error began.1, bind_of_error ran]
    exact ⟨rfl, began.2⟩

theorem report (t : Token) (fault : Fault) : Local h (Parse.report t fault) :=
  fun _ meets => ⟨rfl, meets⟩

theorem fail (fault : Fault) : Local h (Parse.fail fault : Parser α) := by
  intro s meets
  refine ⟨?_, meets⟩
  unfold Parse.fail
  rw [next_place meets]
  rfl

theorem take? {test : Token → Option α} (refuses : h.Refuses test) :
    Local h (Parse.take? test) := by
  intro s meets
  cases upcoming : s.rest with
  | nil =>
    have ran : Parse.take? test s = .ok none s := by
      unfold Parse.take?
      rw [upcoming]
    rw [ran]
    refine ⟨?_, meets⟩
    unfold Parse.take?
    rw [place, upcoming, List.nil_append]
    cases shape : h.tokens with
    | nil => simp [placed, place, upcoming, shape]
    | cons t more =>
      simp only [refuses t (by rw [shape]; rfl)]
      simp [placed, place, upcoming, shape]
  | cons t more =>
    have placed_rest : (h.place s).rest = t :: (more ++ h.tokens) := by
      rw [place, upcoming, List.cons_append]
    unfold Parse.take?
    rw [placed_rest, upcoming]
    dsimp only
    cases test t with
    | none => exact ⟨rfl, meets⟩
    | some a =>
      rw [place_advanced (by rw [upcoming]; exact List.cons_ne_nil _ _)]
      exact ⟨rfl, meets⟩

theorem takeAt? {levels : Nat} {test : Token → Option α} (refuses : h.Refuses test) :
    Local h (Parse.takeAt? levels test) := by
  intro s meets
  have short : ((h.place s).errorBehind?.isSome ∧ ((h.place s).rest.head?.bind test).isSome) ↔
      (s.errorBehind?.isSome ∧ (s.rest.head?.bind test).isSome) := by
    cases upcoming : s.rest with
    | nil =>
      have refused : (h.place s).rest.head?.bind test = none := by
        rw [place, upcoming, List.nil_append]
        exact Option.bind_eq_none_iff.2 refuses
      simp [refused]
    | cons t more =>
      have head : (h.place s).rest.head? = some t := by simp [place, upcoming]
      rw [errorBehind?_place (by simp [upcoming]), head, List.head?_cons]
  rw [takeAt?_eq, takeAt?_eq]
  simp only [short]
  split
  · exact ⟨rfl, meets⟩
  · exact take? refuses s meets

theorem accept? {kinds : Kind → Bool}
    (refuses : ∀ t, h.tokens.head? = some t → kinds t.kind = false) :
    Local h (Parse.accept? kinds) :=
  take? fun t next => ifKind_eq_none.2 (refuses t next)

theorem acceptKind {kind : Kind} (apart : ∀ t, h.tokens.head? = some t → t.kind ≠ kind) :
    Local h (Parse.accept? (· == kind)) :=
  accept? fun t next => beq_eq_false_iff_ne.2 (apart t next)

theorem expect {kind : Kind} (apart : ∀ t, h.tokens.head? = some t → t.kind ≠ kind)
    (fault : Fault) : Local h (Parse.expect kind fault) := by
  refine bind (acceptKind apart) fun found => ?_
  cases found with
  | none => exact fail fault
  | some t => exact pure t

theorem bracket {enter leave : State → State} {body : Parser α} (inside : Local h body)
    (enters : ∀ s, enter (h.place s) = h.place (enter s) ∧ (enter s).finish = s.finish)
    (leaves : ∀ s, leave (h.place s) = h.place (leave s) ∧ (leave s).finish = s.finish) :
    Local h (Parse.bracket enter leave body) := by
  intro s meets
  have ran := inside (enter s) ((enters s).2.trans meets)
  rw [← (enters s).1] at ran
  unfold Parse.bracket
  rw [ran.1]
  cases ended : body (enter s) with
  | ok a middle =>
    rw [ended] at ran
    exact ⟨congrArg _ (leaves middle).1, (leaves middle).2.trans ran.2⟩
  | error abort middle =>
    rw [ended] at ran
    exact ⟨congrArg _ (leaves middle).1, (leaves middle).2.trans ran.2⟩

theorem nested {limit : Nat} {body : Parser α} (inside : Local h body) :
    Local h (Parse.nested limit body) := by
  refine bracket (fun s meets => ?_) (fun _ => ⟨rfl, rfl⟩) (fun _ => ⟨rfl, rfl⟩)
  show (if limit < s.nesting then _ else _) = _ ∧ _
  split
  · exact fail _ s meets
  · exact inside s meets

theorem inBlock {body : Parser α} (inside : Local h body) : Local h (Parse.inBlock body) :=
  bracket inside (fun _ => ⟨rfl, rfl⟩) fun _ => ⟨rfl, rfl⟩

section Expressions
variable {operand : Parser Expr} {isOperator : Kind → Bool} {build : Expr → Token → Expr → Expr}

theorem extend (right : Local h operand)
    (refuses : ∀ t, h.tokens.head? = some t → isOperator t.kind = false)
    (bound : List Token) (left : Expr) :
    Local h (Parse.extend operand isOperator build bound left) := by
  induction bound generalizing left with
  | nil => exact pure left
  | cons t bound ih =>
    refine bind (accept? refuses) fun found => ?_
    cases found with
    | none => exact pure left
    | some operator => exact bind right fun value => ih _

theorem leftChain (right : Local h operand) (kept : Keeps Follows operand)
    (refuses : ∀ t, h.tokens.head? = some t → isOperator t.kind = false) :
    Local h (Parse.leftChain operand isOperator build) := by
  refine bind right fun first s meets => ?_
  show Parse.extend operand isOperator build (h.place s).rest first (h.place s) =
      h.placed (Parse.extend operand isOperator build s.rest first s) ∧
    (after (Parse.extend operand isOperator build s.rest first s)).finish = h.next
  -- in the stretch alone the longer bound does as well
  have longer : s.rest.length ≤ (h.place s).rest.length := by
    simp only [place, List.length_append]
    exact Nat.le_add_right _ _
  rw [extend_bound kept (Nat.le_refl _) longer first]
  exact extend right refuses _ first s meets

end Expressions

end Local

section Rules
variable {h : Horizon}

private theorem opening?_outside {t : Token} (outside : inExpression t.kind = false) :
    opening? t = none := by
  unfold opening?
  revert outside
  cases t.kind <;> first | (intro; rfl) | (intro outside; cases outside)

theorem Outside.refuses (outside : h.Outside) {kinds : Kind → Bool}
    (inside : ∀ kind, kinds kind = true → inExpression kind = true) :
    ∀ t, h.tokens.head? = some t → kinds t.kind = false := by
  intro t next
  by_contra accepted
  have expression := inside t.kind (by simpa using accepted)
  rw [outside t next] at expression
  cases expression

theorem Outside.apart (outside : h.Outside) {kind : Kind} (inside : inExpression kind = true) :
    ∀ t, h.tokens.head? = some t → t.kind ≠ kind := by
  rintro t next rfl
  rw [outside t next] at inside
  cases inside

theorem Local.chain (outside : h.Outside) {r operand : Rule} {isOperator : Kind → Bool}
    {build : Expr → Token → Expr → Expr} (level : Chained r operand isOperator build)
    {limit depth : Nat} (right : Local h (rule limit depth operand)) :
    Local h (rule limit (depth + 1) r) := by
  rw [level.rule_eq]
  exact .leftChain right (keeps_rule limit depth operand)
    (outside.refuses fun _ => level.inExpression)

theorem local_rule (outside : h.Outside) (limit depth : Nat) (r : Rule) :
    Local h (rule limit depth r) := by
  induction depth generalizing r with
  | zero => exact .tooDeep
  | succ depth ih =>
    cases r with
    | expression => exact .nested (ih _)
    | comma => exact .chain outside .comma (ih _)
    | equality => exact .chain outside .equality (ih _)
    | comparison => exact .chain outside .comparison (ih _)
    | term => exact .chain outside .term (ih _)
    | factor => exact .chain outside .factor (ih _)
    | assignment =>
      refine .bind (ih _) fun target => .bind (.acceptKind (outside.apart rfl)) fun found => ?_
      cases found with
      | none => exact .pure target
      | some equals =>
        refine .bind (ih _) fun value => ?_
        split
        · exact .pure _
        · exact .bind (.report _ _) fun _ => .pure _
    | ternary =>
      refine .bind (ih _) fun condition => .bind (.acceptKind (outside.apart rfl))
        fun found => ?_
      cases found with
      | none => exact .pure condition
      | some question =>
        exact .bind (ih _) fun onTrue => .bind (.expect (outside.apart rfl) _) fun _ =>
          .bind (ih _) fun onFalse => .pure _
    | unary =>
      have signs : ∀ kind, isUnaryOperator kind = true → inExpression kind = true := by
        intro kind sign
        cases kind <;> first | rfl | cases sign
      refine .bind (.takeAt? fun t next => ifKind_eq_none.2 (outside.refuses signs t next))
        fun found => ?_
      cases found with
      | none => exact ih _
      | some operator => exact .bind (ih _) fun right => .pure _
    | primary =>
      refine .bind (.takeAt? fun t next => opening?_outside (outside t next)) fun found => ?_
      cases found with
      | none => exact .fail _
      | some opening =>
        cases opening with
        | constant value => exact .pure _
        | name token => exact .pure _
        | group =>
          exact .bind (ih _) fun inner => .bind (.expect (outside.apart rfl) _) fun _ => .pure _
        | operator token operand => exact .bind (.report _ _) fun _ => ih _

theorem local_initializer (outside : h.Outside) (limits : Limits) (depth : Nat) :
    Local h (initializer limits depth) := by
  refine .bind (.acceptKind (outside.apart rfl)) fun found => ?_
  cases found with
  | none => exact .pure none
  | some equals => exact .bind (local_rule outside _ _ _) fun value => .pure _

end Rules

section Recovery
variable {h : Horizon} {s : State}

theorem atBlockEnd_place (more : s.rest ≠ []) : (h.place s).atBlockEnd = s.atBlockEnd := by
  unfold atBlockEnd sees place
  cases upcoming : s.rest with
  | nil => exact absurd upcoming more
  | cons t later => rfl

private theorem atBlockEnd_horizon (empty : s.rest = []) {t : Token} {more : List Token}
    (shape : h.tokens = t :: more) (brace : t.kind = .rightBrace) (inside : s.blocks ≠ 0) :
    (h.place s).atBlockEnd = true := by
  simp [atBlockEnd, sees, place, empty, shape, brace, inside]

/-- On its way the recovery stops at such a horizon as it does at the end of the tokens. -/
theorem seek_place (halts : h.Halts s.blocks) (last : Token) :
    (h.place s).seek last = h.place (s.seek last) := by
  fun_induction State.seek s last with
  | case1 s last empty =>
    cases shape : h.tokens with
    | nil => exact seek_nil (by rw [place, empty, shape]; rfl)
    | cons t more =>
      have upcoming : (h.place s).rest = t :: more := by rw [place, empty, shape]; rfl
      rw [seek_cons upcoming]
      rcases halts t (by rw [shape]; rfl) with starts | ⟨brace, inside⟩
      · exact if_pos (.inr (.inl starts))
      · exact if_pos (.inr (.inr (atBlockEnd_horizon empty shape brace inside)))
  | case2 s last t more upcoming stop =>
    have placed_rest : (h.place s).rest = t :: (more ++ h.tokens) := by
      rw [place, upcoming, List.cons_append]
    rw [seek_cons placed_rest, atBlockEnd_place (by simp [upcoming]), if_pos stop]
  | case3 s last t more upcoming go ih =>
    have placed_rest : (h.place s).rest = t :: (more ++ h.tokens) := by
      rw [place, upcoming, List.cons_append]
    rw [seek_cons placed_rest, atBlockEnd_place (by simp [upcoming]), if_neg go,
      place_advanced (by simp [upcoming])]
    exact ih halts

/-- The token at fault, which the recovery passes unless it closes a block, is in the stretch. -/
theorem synchronized_inside (halts : h.Halts s.blocks) (some_token : s.rest ≠ []) :
    (h.place s).synchronized = h.place s.synchronized := by
  unfold State.synchronized
  cases upcoming : s.rest with
  | nil => exact absurd upcoming some_token
  | cons t more =>
    have placed_rest : (h.place s).rest = t :: (more ++ h.tokens) := by
      rw [place, upcoming, List.cons_append]
    rw [placed_rest]
    dsimp only
    rw [atBlockEnd_place some_token, place_advanced some_token]
    split
    · rfl
    · exact seek_place (s := s.advanced) halts t

theorem synchronized_place (closes : h.Closes s.blocks) :
    (h.place s).synchronized = h.place s.synchronized := by
  cases upcoming : s.rest with
  | cons t more => exact synchronized_inside closes.halts (by simp [upcoming])
  | nil =>
    unfold State.synchronized
    rw [upcoming]
    cases shape : h.tokens with
    | nil => simp [place, upcoming, shape]
    | cons t more =>
      have placed_rest : (h.place s).rest = t :: more := by rw [place, upcoming, shape]; rfl
      obtain ⟨brace, inside⟩ := closes t (by rw [shape]; rfl)
      rw [placed_rest]
      exact if_pos (atBlockEnd_horizon upcoming shape brace inside)

theorem recovered_place {body : Parser Stmt} (complains : Complains body)
    (ran : body (h.place s) = h.placed (body s)) (meets : (after (body s)).finish = h.next)
    (closes : h.Closes (after (body s)).blocks) :
    recovered body (h.place s) = ((recovered body s).1, h.place (recovered body s).2) := by
  unfold recovered
  rw [ran]
  cases ended : body s with
  | ok made middle => rfl
  | error abort middle =>
    rw [ended] at meets closes
    cases abort with
    | reported => exact congrArg (Prod.mk none) (synchronized_place closes)
    | tooDeep =>
      have met : middle.finish = h.next := meets
      simp only [placed]
      rw [next_place met, place_report]
      exact congrArg (Prod.mk none) (synchronized_place (s := middle.report _ _) closes)
    | overrun =>
      have stands := stopped_place (h := h) (complains _ _ _ ended)
      have met : middle.stopped.finish = h.next := middle.stopped_frame.1.trans meets
      have inside : h.Closes middle.stopped.blocks := by rwa [middle.stopped_frame.2]
      simp only [placed]
      rw [stands, next_place met, place_report]
      exact congrArg (Prod.mk none) (synchronized_place (s := middle.stopped.report _ _) inside)

theorem declarations_place {declaration : State → Option Stmt × State} {ends : State → Bool}
    {stays : State → Prop}
    (each : ∀ s, stays s → ends s = false →
      declaration (h.place s) = ((declaration s).1, h.place (declaration s).2) ∧
        stays (declaration s).2)
    (same_end : ∀ s, stays s → ends (h.place s) = ends s) (bound : List Token) (here : stays s) :
    declarations declaration ends bound (h.place s) =
      ((declarations declaration ends bound s).1,
        h.place (declarations declaration ends bound s).2) := by
  induction bound generalizing s with
  | nil => rfl
  | cons t bound ih =>
    unfold declarations
    rw [same_end s here]
    split
    · rfl
    · rename_i goes_on
      obtain ⟨first, still⟩ := each s here (by simpa using goes_on)
      rw [first]
      dsimp only
      rw [ih still]

theorem allDeclarations_place {declaration : State → Option Stmt × State} {ends : State → Bool}
    (stays : State → Prop) {moves : State → Prop} (progresses : Progresses declaration ends moves)
    (each : ∀ s, stays s → ends s = false →
      declaration (h.place s) = ((declaration s).1, h.place (declaration s).2) ∧
        stays (declaration s).2)
    (same_end : ∀ s, stays s → ends (h.place s) = ends s) (here : stays s) (still : moves s) :
    allDeclarations declaration ends (h.place s) =
      ((allDeclarations declaration ends s).1, h.place (allDeclarations declaration ends s).2) := by
  have longer : s.rest.length ≤ (h.place s).rest.length := by
    simp only [place, List.length_append]
    exact Nat.le_add_right _ _
  unfold allDeclarations
  rw [declarations_bound progresses still (Nat.le_refl _) longer]
  exact declarations_place each same_end _ here

end Recovery

section Statements
variable {h : Horizon} (bare : h.tokens = [])
include bare

theorem refuses_of_bare {P : Token → Prop} : ∀ t, h.tokens.head? = some t → P t := by
  intro t next
  rw [bare] at next
  cases next

theorem rest_place_bare (s : State) : (h.place s).rest = s.rest := by
  rw [place, bare, List.append_nil]

private theorem endsBody_place_bare (s : State) : endsBody (h.place s) = endsBody s := by
  simp only [endsBody, atEnd, sees, rest_place_bare bare]

theorem Local.body {p : Parser Stmt} (complains : Complains p) (inside : Local h p) :
    Local h (body (recovered p)) := by
  intro s meets
  have each : ∀ s, s.finish = h.next → endsBody s = false →
      recovered p (h.place s) = ((recovered p s).1, h.place (recovered p s).2) ∧
        (recovered p s).2.finish = h.next := by
    intro s meets _
    obtain ⟨ran, still⟩ := inside s meets
    refine ⟨recovered_place complains ran still (refuses_of_bare bare), ?_⟩
    unfold recovered
    cases ended : p s with
    | ok made middle => rwa [ended] at still
    | error abort middle =>
      rw [ended] at still
      cases abort with
      | reported => exact (law_follows.synchronized middle).finish.trans still
      | tooDeep => exact (law_follows.synchronized (middle.report _ _)).finish.trans still
      | overrun => exact (law_follows.stopped middle).finish.trans still
  have whole := declarations_place each (fun s _ => endsBody_place_bare bare s) s.rest meets
  refine ⟨?_, ?_⟩
  · rw [body_eq, body_eq, rest_place_bare bare, whole]
    rfl
  · have stays : ∀ bound s, s.finish = h.next →
        (declarations (recovered p) endsBody bound s).2.finish = h.next := by
      intro bound
      induction bound with
      | nil => exact fun _ meets => meets
      | cons t bound ih =>
        intro s meets
        unfold declarations
        split
        · exact meets
        · rename_i goes_on
          exact ih _ (each s meets (by simpa using goes_on)).2
    rw [body_eq]
    exact stays s.rest s meets

theorem local_statement (limits : Limits) (depth : Nat) : Local h (statement limits depth) := by
  have outside : h.Outside := refuses_of_bare bare
  induction depth with
  | zero => exact .tooDeep
  | succ depth ih =>
    refine .bind (.take? (refuses_of_bare bare)) fun found => ?_
    cases found with
    | none =>
      exact .bind (local_rule outside _ _ _) fun value =>
        .bind (.expect (refuses_of_bare bare) _) fun _ => .pure _
    | some leader =>
      cases leader with
      | declaration =>
        exact .bind (.expect (refuses_of_bare bare) _) fun name =>
          .bind (local_initializer outside _ _) fun value =>
            .bind (.expect (refuses_of_bare bare) _) fun _ => .pure _
      | output =>
        exact .bind (local_rule outside _ _ _) fun value =>
          .bind (.expect (refuses_of_bare bare) _) fun _ => .pure _
      | block =>
        exact .bind (.nested (.inBlock (.body bare (complains.statement limits depth) ih))) fun body =>
          .bind (.expect (refuses_of_bare bare) _) fun _ => .pure _

end Statements

end Horizon

end Scriptlet.Parse
