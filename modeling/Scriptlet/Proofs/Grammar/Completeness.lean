import Scriptlet.Proofs.Grammar.Soundness

/-! On tokens that the grammar derives, within the limit of nesting and before a
token that does not go on with the tree, a rule returns the derived tree and
takes just these tokens, whatever follows them, or its levels of recursion do
not suffice, and then they run out at the same place whatever follows. -/
namespace Scriptlet.Grammar
open Parse Parse.State

def rank : Rule → Nat
  | .primary => 0 | .unary => 1 | .factor => 2 | .term => 3 | .comparison => 4
  | .equality => 5 | .ternary => 6 | .assignment => 7 | .comma => 8 | .expression => 9

def tighter : Rule → Rule
  | .expression => .comma | .comma => .assignment | .assignment => .ternary
  | .ternary => .equality | .equality => .comparison | .comparison => .term
  | .term => .factor | .factor => .unary | .unary | .primary => .primary

theorem rank_tighter (r : Rule) : rank (tighter r) = rank r - 1 := by
  cases r <;> rfl

theorem eq_of_rank {r other : Rule} (same : rank r = rank other) : r = other := by
  cases r <;> cases other <;> first | rfl | cases same

/-- The rule that goes on with a finished tree at a token of this kind. -/
def joins? : Kind → Option Rule
  | .star | .slash => some .factor
  | .plus | .minus => some .term
  | .greater | .greaterEqual | .less | .lessEqual => some .comparison
  | .equalEqual | .bangEqual => some .equality
  | .question => some .ternary
  | .equal => some .assignment
  | .comma => some .comma
  | _ => none

/-- The next token is not of kind error, and goes on with no tree of this rule. -/
structure Closes (r : Rule) (rest : List Token) : Prop where
  clear : Clear rest
  apart : ∀ t j, upcoming? rest = some t → joins? t.kind = some j → rank r < rank j

theorem Closes.tighter {r other : Rule} {rest : List Token} (closes : Closes r rest)
    (below : rank other ≤ rank r) : Closes other rest :=
  ⟨closes.clear, fun t j next joined => Nat.lt_of_le_of_lt below (closes.apart t j next joined)⟩

theorem closes_cons {r : Rule} {t : Token} {kind : Kind} (sort : t.kind = kind)
    (usable : kind ≠ .error) (apart : ∀ j ∈ joins? kind, rank r < rank j) (rest : List Token) :
    Closes r (t :: rest) := by
  subst sort
  refine ⟨clear_cons usable rest, fun u j next => ?_⟩
  exact forall_upcoming (P := fun u => joins? u.kind = some j → _) usable (apart j) rest u next

theorem refuses_of_closes {kind : Kind} {r : Rule} (joined : joins? kind = some r)
    {rest : List Token} (closes : Closes r rest) {t : Token} (next : upcoming? rest = some t) :
    (t.kind == kind) = false := by
  rw [beq_eq_false_iff_ne]
  rintro rfl
  exact Nat.lt_irrefl _ (closes.apart t r next joined)

namespace Chained
variable {r operand : Rule} {isOperator : Kind → Bool} {build : Expr → Token → Expr → Expr}

theorem rank_eq (level : Chained r operand isOperator build) : rank r = rank operand + 1 := by
  cases level <;> rfl

theorem rank_operand (level : Chained r operand isOperator build) : rank operand < rank r := by
  rw [level.rank_eq]
  exact Nat.lt_succ_self _

theorem joins_operator (level : Chained r operand isOperator build) {kind : Kind}
    (sign : isOperator kind = true) : joins? kind = some r := by
  cases level <;> cases kind <;> first | rfl | cases sign

theorem usable (level : Chained r operand isOperator build) {kind : Kind}
    (sign : isOperator kind = true) : kind ≠ .error := by
  rintro rfl
  cases level.joins_operator sign

theorem refuses (level : Chained r operand isOperator build) {rest : List Token}
    (closes : Closes r rest) (t : Token) (next : upcoming? rest = some t) :
    isOperator t.kind = false := by
  cases sign : isOperator t.kind with
  | false => rfl
  | true => exact absurd (closes.apart t r next (level.joins_operator sign)) (Nat.lt_irrefl _)

theorem closes_operator (level : Chained r operand isOperator build) {t : Token}
    (sign : isOperator t.kind = true) (rest : List Token) : Closes operand (t :: rest) := by
  refine closes_cons rfl (level.usable sign) (fun j joined => ?_) rest
  rw [level.joins_operator sign] at joined
  cases joined
  exact level.rank_operand

theorem closes_links (level : Chained r operand isOperator build) {links : List Link}
    (signs : ∀ link ∈ links, isOperator link.operator.kind = true) {rest : List Token}
    (closes : Closes r rest) : Closes operand (links.flatMap Link.yield ++ rest) := by
  cases links with
  | nil => exact closes.tighter (Nat.le_of_lt level.rank_operand)
  | cons next links => exact level.closes_operator (signs next (by simp)) _

end Chained

def reporting (faults : List Diagnostic) (s : State) : State :=
  { s with reports := faults ++ s.reports }

/-- In every context that fits, the parser is abandoned at the same place among these tokens or
right behind them, and makes the same reports. -/
def Abandons {α : Type} (abort : Abort) (context : State → List Token → Prop) (p : Parser α)
    (ts : List Token) : Prop :=
  ∃ faults left, left <:+ ts ∧ ∀ s rest, context s rest →
    p (s.facing (ts ++ rest)) = .error abort ((reporting faults s).facing (left ++ rest))

/-- In every context that fits, the parser takes these tokens and returns the
result; or in every one of them its levels of recursion run out. -/
def Settles {α : Type} (context : State → List Token → Prop) (p : Parser α) (ts : List Token)
    (a : α) : Prop :=
  (∀ s rest, context s rest → p (s.facing (ts ++ rest)) = .ok a (s.facing rest)) ∨
    Abandons .tooDeep context p ts

/-- In every context that fits, the parser takes these tokens, makes these reports and returns
the result; or in every one of them its levels of recursion run out. -/
def SettlesWith {α : Type} (faults : List Diagnostic) (context : State → List Token → Prop)
    (p : Parser α) (ts : List Token) (a : α) : Prop :=
  (∀ s rest, context s rest →
      p (s.facing (ts ++ rest)) = .ok a ((reporting faults s).facing rest)) ∨
    Abandons .tooDeep context p ts

namespace Abandons
variable {α β : Type} {abort : Abort} {p : Parser α} {f : α → Parser β} {ts us : List Token}
  {P Q : State → List Token → Prop}

theorem weaken (abandons : Abandons abort P p ts) (context : ∀ s rest, Q s rest → P s rest) :
    Abandons abort Q p ts := by
  obtain ⟨faults, left, inside, ran⟩ := abandons
  exact ⟨faults, left, inside, fun s rest fits => ran s rest (context s rest fits)⟩

theorem here (stops : ∀ s, p s = .error abort s) (ts : List Token) : Abandons abort Q p ts :=
  ⟨[], ts, List.suffix_refl ts, fun _ _ _ => stops _⟩

theorem bind (first : Abandons abort P p ts) (context : ∀ s rest, Q s rest → P s (us ++ rest)) :
    Abandons abort Q (p >>= f) (ts ++ us) := by
  obtain ⟨faults, left, inside, ran⟩ := first
  refine ⟨faults, left ++ us, ?_, fun s rest fits => ?_⟩
  · obtain ⟨taken, rfl⟩ := inside
    exact ⟨taken, by rw [List.append_assoc]⟩
  · rw [List.append_assoc, List.append_assoc]
    exact bind_of_error (ran s (us ++ rest) (context s rest fits))

theorem behind {q : Parser α} {faults : List Diagnostic} (second : Abandons abort Q p us)
    (began : ∀ s rest, Q s rest →
      q (s.facing (ts ++ us ++ rest)) = p ((reporting faults s).facing (us ++ rest)))
    (kept : ∀ s rest, Q s rest → Q (reporting faults s) rest) : Abandons abort Q q (ts ++ us) := by
  obtain ⟨more, left, inside, ran⟩ := second
  refine ⟨more ++ faults, left, inside.trans (List.suffix_append ts us), fun s rest fits => ?_⟩
  rw [began s rest fits, ran _ rest (kept s rest fits)]
  simp only [reporting, List.append_assoc]

theorem nested {limit : Nat} (inside : Abandons abort P p ts)
    (context : ∀ s rest, Q s rest → s.nesting + 1 ≤ limit ∧ P s.deeper rest) :
    Abandons abort Q (Parse.nested limit p) ts := by
  obtain ⟨faults, left, within, ran⟩ := inside
  refine ⟨faults, left, within, fun s rest fits => ?_⟩
  obtain ⟨room, inner⟩ := context s rest fits
  exact nested_error (s := s.facing (ts ++ rest)) room (ran s.deeper rest inner)

end Abandons

theorem Settles.quiet {α : Type} {context : State → List Token → Prop} {p : Parser α}
    {ts : List Token} {a : α} (settles : Settles context p ts a) :
    SettlesWith [] context p ts a := settles

theorem SettlesWith.bind {α β : Type} {faults : List Diagnostic} {p : Parser α} {f : α → Parser β}
    {ts us : List Token} {a : α} {b : β} {P Q : State → List Token → Prop}
    (first : SettlesWith faults P p ts a) (second : Settles Q (f a) us b)
    (context : ∀ s rest, Q s rest → P s (us ++ rest))
    (kept : ∀ s rest, Q s rest → Q (reporting faults s) rest) :
    SettlesWith faults Q (p >>= f) (ts ++ us) b := by
  rcases first with reads | exhausts
  · have began : ∀ s rest, Q s rest →
        (p >>= f) (s.facing (ts ++ us ++ rest)) =
          f a ((reporting faults s).facing (us ++ rest)) := by
      intro s rest fits
      rw [List.append_assoc]
      exact bind_of_ok (reads s (us ++ rest) (context s rest fits))
    rcases second with goes_on | stops
    · exact .inl fun s rest fits => (began s rest fits).trans (goes_on _ rest (kept s rest fits))
    · exact .inr (stops.behind began kept)
  · exact .inr (exhausts.bind context)

namespace Settles
variable {α β : Type} {p : Parser α} {f : α → Parser β} {ts us : List Token} {a : α} {b : β}
  {P Q : State → List Token → Prop}

theorem bind (first : Settles P p ts a) (second : Settles Q (f a) us b)
    (context : ∀ s rest, Q s rest → P s (us ++ rest)) : Settles Q (p >>= f) (ts ++ us) b :=
  first.quiet.bind second context fun _ _ fits => fits

theorem step (first : Settles (fun _ _ => True) p ts a) (second : Settles Q (f a) us b) :
    Settles Q (p >>= f) (ts ++ us) b :=
  bind first second fun _ _ _ => trivial

theorem weaken (settles : Settles P p ts a) (context : ∀ s rest, Q s rest → P s rest) :
    Settles Q p ts a := by
  rcases settles with reads | exhausts
  · exact .inl fun s rest fits => reads s rest (context s rest fits)
  · exact .inr (exhausts.weaken context)

theorem pure (a : α) : Settles Q (Pure.pure a : Parser α) [] a := .inl fun _ _ _ => rfl

theorem tooDeep {ts : List Token} {a : α} : Settles Q (throw .tooDeep : Parser α) ts a :=
  .inr (.here (fun _ => rfl) ts)

theorem take? {test : Token → Option α} {t : Token} (usable : t.kind ≠ .error)
    (passes : test t = some a) : Settles Q (Parse.take? test) [t] (some a) :=
  .inl fun s rest _ => take?_facing usable passes s rest

theorem takeAt? {levels : Nat} {test : Token → Option α} {t : Token} (usable : t.kind ≠ .error)
    (passes : test t = some a) :
    Settles (fun _ rest => Clear rest) (Parse.takeAt? levels test) [t] (some a) :=
  .inl fun s _ clear => takeAt?_facing usable passes s clear

theorem accept? {test : Kind → Bool} {t : Token} (usable : t.kind ≠ .error)
    (passes : test t.kind = true) : Settles Q (Parse.accept? test) [t] (some t) :=
  .inl fun s rest _ => accept?_facing usable passes s rest

theorem unaccepted {test : Kind → Bool}
    (refuses : ∀ s rest, Q s rest → ∀ t, upcoming? rest = some t → test t.kind = false) :
    Settles Q (Parse.accept? test) [] none :=
  .inl fun s rest fits => accept?_refused (refuses s rest fits)

theorem expect {t : Token} {kind : Kind} (sort : t.kind = kind) (usable : kind ≠ .error)
    (fault : Fault) : Settles Q (Parse.expect kind fault) [t] t :=
  .inl fun s rest _ => expect_facing sort usable fault s rest

theorem behind {q : Parser α} {faults : List Diagnostic} (inside : Settles Q q us a)
    (began : ∀ s rest, p (facing s (ts ++ us ++ rest)) =
      q ((reporting faults s).facing (us ++ rest)))
    (kept : ∀ s rest, Q s rest → Q (reporting faults s) rest) :
    SettlesWith faults Q p (ts ++ us) a := by
  rcases inside with reads | exhausts
  · exact .inl fun s rest fits => (began s rest).trans (reads _ rest (kept s rest fits))
  · exact .inr (exhausts.behind (fun s rest _ => began s rest) kept)

end Settles

namespace SettlesWith
variable {α β : Type} {faults : List Diagnostic} {p : Parser α} {ts : List Token} {a : α}
  {P Q : State → List Token → Prop}

theorem congr {q : Parser α} (inside : SettlesWith faults Q q ts a)
    (same : ∀ s rest, p (facing s (ts ++ rest)) = q (facing s (ts ++ rest))) :
    SettlesWith faults Q p ts a := by
  rcases inside with reads | ⟨more, left, within, stops⟩
  · exact .inl fun s rest fits => (same s rest).trans (reads s rest fits)
  · exact .inr ⟨more, left, within, fun s rest fits => (same s rest).trans (stops s rest fits)⟩

theorem unextended {test : Kind → Bool} {more : α → Option Token → Parser α}
    (whole : SettlesWith faults P p ts a) (ends : more a none = pure a)
    (refuses : ∀ s rest, Q s rest → ∀ t, upcoming? rest = some t → test t.kind = false)
    (context : ∀ s rest, Q s rest → P s rest)
    (kept : ∀ s rest, Q s rest → Q (reporting faults s) rest) :
    SettlesWith faults Q (p >>= fun a => accept? test >>= more a) ts a := by
  have last : Settles Q (more a none) [] a := by rw [ends]; exact .pure a
  have both := bind (f := fun a => accept? test >>= more a) whole
    (Settles.bind (P := Q) (.unaccepted refuses) last fun s rest fits => fits) context kept
  simpa using both

theorem nested {limit : Nat} (inside : SettlesWith faults P p ts a)
    (context : ∀ s rest, Q s rest → s.nesting + 1 ≤ limit ∧ P s.deeper rest) :
    SettlesWith faults Q (Parse.nested limit p) ts a := by
  rcases inside with reads | exhausts
  · refine .inl fun s rest fits => ?_
    obtain ⟨room, inner⟩ := context s rest fits
    exact nested_ok (s := s.facing (ts ++ rest)) room (reads s.deeper rest inner)
  · exact .inr (exhausts.nested context)

end SettlesWith

/-- A tree of a rule fits where the nesting has room for it and the next token
does not go on with it. -/
def Fits (limit : Nat) (r : Rule) (e : Expr) (s : State) (rest : List Token) : Prop :=
  s.nesting + (e.nesting + entry r) ≤ limit ∧ Closes r rest

theorem Fits.part {limit : Nat} {r inner : Rule} {e part : Expr} {s : State}
    {rest after : List Token} (fits : Fits limit r e s rest)
    (smaller : part.nesting + entry inner ≤ e.nesting + entry r) (closes : Closes inner after) :
    Fits limit inner part s after := by
  have room := fits.1
  exact ⟨by omega, closes⟩

private theorem extend_settles {limit : Nat} {r operand : Rule} {p : Parser Expr} {isOperator : Kind → Bool}
    {build : Expr → Token → Expr → Expr} (level : Chained r operand isOperator build)
    (links : List Link) (operators : ∀ link ∈ links, isOperator link.operator.kind = true)
    (operands : ∀ link ∈ links, Settles (Fits limit operand link.right) p link.tokens link.right)
    (left : Expr) :
    (∀ bound s rest, links.length ≤ bound.length →
        Fits limit r (folded build left links) s rest →
        extend p isOperator build bound left (s.facing (links.flatMap Link.yield ++ rest)) =
          .ok (folded build left links) (s.facing rest)) ∨
      ∃ faults last, last <:+ links.flatMap Link.yield ∧
        ∀ bound s rest, links.length ≤ bound.length →
          Fits limit r (folded build left links) s rest →
          extend p isOperator build bound left (s.facing (links.flatMap Link.yield ++ rest)) =
            .error .tooDeep ((reporting faults s).facing (last ++ rest)) := by
  induction links generalizing left with
  | nil =>
    refine .inl fun bound s rest _ fits => ?_
    cases bound with
    | nil => rfl
    | cons _ bound => exact bind_of_ok (accept?_refused (level.refuses fits.2))
  | cons link links ih =>
    obtain ⟨sign, signs⟩ := List.forall_mem_cons.1 operators
    obtain ⟨head, tail⟩ := List.forall_mem_cons.1 operands
    have grown := ih signs tail (build left link.operator link.right)
    -- what follows an operand is the next operator or the end of the chain
    have after : ∀ s rest, Fits limit r (folded build left (link :: links)) s rest →
        Fits limit operand link.right s (links.flatMap Link.yield ++ rest) := by
      intro s rest fits
      have inside : link.right.nesting ≤ (folded build left (link :: links)).nesting :=
        (level.nesting_folded.1 (Nat.le_refl _)).2 link (by simp)
      refine fits.part ?_ (level.closes_links signs fits.2)
      rw [level.entry_operand, level.entry_eq]
      exact inside
    have accepted : ∀ (bound : List Token) (t : Token) (s : State) (rest : List Token),
        extend p isOperator build (t :: bound) left
            (s.facing ((link :: links).flatMap Link.yield ++ rest)) =
          (p >>= fun right => extend p isOperator build bound (build left link.operator right))
            (s.facing (link.tokens ++ (links.flatMap Link.yield ++ rest))) := by
      intro bound t s rest
      simp only [List.flatMap_cons, Link.yield, List.cons_append, List.append_assoc]
      exact bind_of_ok (accept?_facing (level.usable sign) sign s _)
    rcases head with reads | exhausts
    · rcases grown with goes_on | stops
      · refine .inl fun bound s rest long fits => ?_
        obtain _ | ⟨t, bound⟩ := bound
        · cases long
        · rw [accepted, bind_of_ok (reads s _ (after s rest fits))]
          exact goes_on bound s rest (Nat.le_of_succ_le_succ long) fits
      · obtain ⟨faults, last, inside, stop⟩ := stops
        refine .inr ⟨faults, last, inside.trans ?_, fun bound s rest long fits => ?_⟩
        · rw [List.flatMap_cons]
          exact List.suffix_append _ _
        obtain _ | ⟨t, bound⟩ := bound
        · cases long
        · rw [accepted, bind_of_ok (reads s _ (after s rest fits))]
          exact stop bound s rest (Nat.le_of_succ_le_succ long) fits
    · obtain ⟨faults, last, inside, stop⟩ := exhausts
      refine .inr ⟨faults, last ++ links.flatMap Link.yield, ?_, fun bound s rest long fits => ?_⟩
      · obtain ⟨taken, whole⟩ := inside
        exact ⟨link.operator :: taken, by simp [Link.yield, ← whole]⟩
      obtain _ | ⟨t, bound⟩ := bound
      · cases long
      · rw [accepted, bind_of_error (stop s _ (after s rest fits)), List.append_assoc]

theorem length_links {r operand : Rule} {isOperator : Kind → Bool}
    {build : Expr → Token → Expr → Expr} (level : Chained r operand isOperator build)
    {links : List Link} (operators : ∀ link ∈ links, isOperator link.operator.kind = true)
    (s : State) (rest : List Token) :
    links.length ≤ (s.facing (links.flatMap Link.yield ++ rest)).rest.length := by
  have each : links.length ≤ (links.flatMap Link.yield).length := by
    induction links with
    | nil => simp
    | cons link links ih =>
      have more := ih fun other member => operators other (by simp [member])
      simp only [List.flatMap_cons, Link.yield, List.length_append, List.length_cons] at more ⊢
      omega
  cases links with
  | nil => simp
  | cons link links =>
    have sign := level.usable (operators link (by simp))
    simp only [List.flatMap_cons, Link.yield, List.cons_append] at each ⊢
    rw [facing_cons s sign]
    simp only [List.length_append, List.length_cons] at each ⊢
    omega

theorem settles_chain {limit depth : Nat} {r operand : Rule} {isOperator : Kind → Bool}
    {build : Expr → Token → Expr → Expr} (level : Chained r operand isOperator build)
    {ts : List Token} {first : Expr} {links : List Link}
    (operators : ∀ link ∈ links, isOperator link.operator.kind = true)
    {faults : List Diagnostic}
    (head : SettlesWith faults (Fits limit operand first) (rule limit depth operand) ts first)
    (operands : ∀ link ∈ links,
      Settles (Fits limit operand link.right) (rule limit depth operand) link.tokens link.right) :
    SettlesWith faults (Fits limit r (folded build first links)) (rule limit (depth + 1) r)
      (ts ++ links.flatMap Link.yield) (folded build first links) := by
  rw [level.rule_eq]
  refine head.bind ?_ ?_ fun _ _ fits => fits
  · have long := length_links level operators
    rcases extend_settles level links operators operands first with reads | exhausts
    · exact .inl fun s rest fits => reads _ s rest (long s rest) fits
    · obtain ⟨more, last, inside, stop⟩ := exhausts
      exact .inr ⟨more, last, inside, fun s rest fits => stop _ s rest (long s rest) fits⟩
  · intro s rest fits
    have inside : first.nesting ≤ (folded build first links).nesting :=
      (level.nesting_folded.1 (Nat.le_refl _)).1
    refine fits.part ?_ (level.closes_links operators fits.2)
    rw [level.entry_operand, level.entry_eq]
    exact inside

section Wholes
variable {limit depth : Nat} {ts : List Token} {e : Expr} {faults : List Diagnostic}

theorem settles_expression
    (whole : SettlesWith faults (Fits limit .comma e) (rule limit depth .comma) ts e) :
    SettlesWith faults (Fits limit .expression e) (rule limit (depth + 1) .expression) ts e := by
  refine whole.nested fun s rest fits => ?_
  have room := fits.1
  simp only [entry] at room
  refine ⟨by omega, ?_, fits.2.tighter (by decide)⟩
  simp only [deeper, entry]
  omega

theorem settles_unassigned
    (whole : SettlesWith faults (Fits limit .ternary e) (rule limit depth .ternary) ts e) :
    SettlesWith faults (Fits limit .assignment e) (rule limit (depth + 1) .assignment) ts e := by
  refine whole.unextended rfl (fun s rest fits t next => ?_) (fun s rest fits => ?_)
    fun _ _ fits => fits
  · exact refuses_of_closes rfl fits.2 next
  · exact fits.part (Nat.le_refl _) (fits.2.tighter (by decide))

theorem settles_unconditional
    (whole : SettlesWith faults (Fits limit .equality e) (rule limit depth .equality) ts e) :
    SettlesWith faults (Fits limit .ternary e) (rule limit (depth + 1) .ternary) ts e := by
  refine whole.unextended rfl (fun s rest fits t next => ?_) (fun s rest fits => ?_)
    fun _ _ fits => fits
  · exact refuses_of_closes rfl fits.2 next
  · exact fits.part (Nat.le_refl _) (fits.2.tighter (by decide))

end Wholes

theorem settles_assign {limit depth : Nat} {ts us : List Token} {name equals : Token} {value : Expr}
    {faults : List Diagnostic} (sign : equals.kind = .equal)
    (target : SettlesWith faults (Fits limit .ternary (.reference name)) (rule limit depth .ternary)
      ts (.reference name))
    (source : Settles (Fits limit .assignment value) (rule limit depth .assignment) us value) :
    SettlesWith faults (Fits limit .assignment (.assign name value))
      (rule limit (depth + 1) .assignment) (ts ++ equals :: us) (.assign name value) := by
  have usable : equals.kind ≠ .error := by rw [sign]; decide
  have shape : ts ++ equals :: us = ts ++ ([equals] ++ (us ++ [])) := by simp
  rw [shape]
  refine target.bind (Settles.step (Settles.accept? usable (by rw [sign]; rfl))
    (Settles.bind source (Settles.pure _) fun s rest fits => fits)) (fun s rest fits => ?_)
    fun _ _ fits => fits
  exact fits.part (Nat.zero_le _) (closes_cons sign (by decide) (by decide) _)

theorem settles_conditional {limit depth : Nat} {ts us vs : List Token} {question colon : Token}
    {c t f : Expr} {faults : List Diagnostic} (ask : question.kind = .question)
    (choose : colon.kind = .colon)
    (condition : SettlesWith faults (Fits limit .equality c) (rule limit depth .equality) ts c)
    (onTrue : Settles (Fits limit .expression t) (rule limit depth .expression) us t)
    (onFalse : Settles (Fits limit .ternary f) (rule limit depth .ternary) vs f) :
    SettlesWith faults (Fits limit .ternary (.conditional c t f)) (rule limit (depth + 1) .ternary)
      (ts ++ question :: (us ++ colon :: vs)) (.conditional c t f) := by
  have usable : question.kind ≠ .error := by rw [ask]; decide
  have shape : ts ++ question :: (us ++ colon :: vs) =
      ts ++ ([question] ++ (us ++ ([colon] ++ (vs ++ [])))) := by simp
  rw [shape]
  refine condition.bind (Settles.step (Settles.accept? usable (by rw [ask]; rfl))
    (Settles.bind onTrue (Settles.step (Settles.expect choose (by decide) _)
      (Settles.bind onFalse (Settles.pure _) ?last)) ?middle)) ?first fun _ _ fits => fits
  case last =>
    intro s rest fits
    exact fits.part (by simp only [Expr.nesting, entry]; omega) fits.2
  case middle =>
    intro s rest fits
    exact fits.part (by simp only [Expr.nesting, entry]; omega)
      (closes_cons choose (by decide) (by decide) _)
  case first =>
    intro s rest fits
    exact fits.part (by simp only [Expr.nesting, entry]; omega)
      (closes_cons ask (by decide) (by decide) _)

def opensExpression : Kind → Bool
  | .falseWord | .trueWord | .nilWord | .number | .string | .identifier | .leftParen | .bang
  | .minus => true
  | _ => false

def opensPrimary (kind : Kind) : Bool := opensExpression kind && !isUnaryOperator kind

theorem head_of_derives {r : Rule} {ts : List Token} {e : Expr} (derived : Derives r ts e) :
    ∃ t more, ts = t :: more ∧ opensExpression t.kind = true ∧
      (r = .primary → opensPrimary t.kind = true) := by
  induction derived with
  | expression _ ih | unassigned _ ih | unconditional _ ih | plain _ ih =>
    obtain ⟨t, more, rfl, opens, _⟩ := ih
    exact ⟨t, more, rfl, opens, nofun⟩
  | chain level _ _ _ ih _ =>
    obtain ⟨t, more, rfl, opens, _⟩ := ih
    exact ⟨t, _, rfl, opens, by cases level <;> nofun⟩
  | assign _ _ _ ih _ | conditional _ _ _ _ _ ih _ _ =>
    obtain ⟨t, more, rfl, opens, _⟩ := ih
    exact ⟨t, _, rfl, opens, nofun⟩
  | unary sign _ _ =>
    refine ⟨_, _, rfl, ?_, nofun⟩
    rcases sign with sign | sign <;> rw [sign] <;> rfl
  | @constant t value word =>
    refine ⟨t, [], rfl, ?_, fun _ => ?_⟩ <;> cases kind : t.kind <;> rw [kind] at word <;>
      first | rfl | cases word
  | read sort =>
    refine ⟨_, _, rfl, ?_, fun _ => ?_⟩ <;> rcases sort with sort | sort <;> rw [sort] <;> rfl
  | name sort | grouping sort _ _ =>
    refine ⟨_, _, rfl, ?_, fun _ => ?_⟩ <;> rw [sort] <;> rfl

theorem usable_of_opens {kind : Kind} (opens : opensExpression kind = true) : kind ≠ .error := by
  rintro rfl
  cases opens

theorem clear_of_derives {r : Rule} {ts : List Token} {e : Expr} (derived : Derives r ts e)
    (rest : List Token) : Clear (ts ++ rest) := by
  obtain ⟨t, more, rfl, opens, _⟩ := head_of_derives derived
  exact clear_cons (usable_of_opens opens) _

private theorem settles_unary {limit depth : Nat} {operator : Token} {ts : List Token} {e : Expr}
    (sign : operator.kind = .bang ∨ operator.kind = .minus) (derived : Derives .unary ts e)
    (right : Settles (Fits limit .unary e) (rule limit depth .unary) ts e) :
    Settles (Fits limit .unary (.unary operator e)) (rule limit (depth + 1) .unary)
      (operator :: ts) (.unary operator e) := by
  have usable : operator.kind ≠ .error := by rcases sign with sign | sign <;> rw [sign] <;> decide
  have passes : isUnaryOperator operator.kind = true := by
    rcases sign with sign | sign <;> rw [sign] <;> rfl
  have shape : operator :: ts = [operator] ++ (ts ++ []) := by simp
  rw [shape]
  refine Settles.bind (Settles.takeAt? usable (ifKind_eq_some.2 ⟨passes, rfl⟩))
    (Settles.bind right (Settles.pure _) fun s rest fits => fits) fun s rest _ => ?_
  rw [List.append_nil]
  exact clear_of_derives derived rest

/-- Where no unary operator is next, the operand of one is a primary. -/
theorem settles_unsigned {limit depth : Nat} {t : Token} {ts : List Token} {e : Expr}
    {faults : List Diagnostic} {Q : State → List Token → Prop} (usable : t.kind ≠ .error)
    (refused : isUnaryOperator t.kind = false)
    (whole : SettlesWith faults Q (rule limit depth .primary) (t :: ts) e) :
    SettlesWith faults Q (rule limit (depth + 1) .unary) (t :: ts) e := by
  exact whole.congr fun s rest =>
    bind_of_ok (takeAt?_refused (forall_upcoming usable (ifKind_eq_none.2 refused) _))

private theorem settles_plain {limit depth : Nat} {ts : List Token} {e : Expr}
    (derived : Derives .primary ts e)
    (whole : Settles (Fits limit .primary e) (rule limit depth .primary) ts e) :
    Settles (Fits limit .unary e) (rule limit (depth + 1) .unary) ts e := by
  obtain ⟨t, more, rfl, opens, primary⟩ := head_of_derives derived
  have refused : isUnaryOperator t.kind = false := by
    have first := primary rfl
    simp only [opensPrimary, Bool.and_eq_true, Bool.not_eq_true'] at first
    exact first.2
  have tight := whole.weaken (Q := Fits limit .unary e) fun s rest fits =>
    ⟨fits.1, fits.2.tighter (Nat.zero_le 1)⟩
  exact settles_unsigned (usable_of_opens opens) refused tight.quiet

private theorem settles_grouping {limit depth : Nat} {opening closing : Token} {ts : List Token} {e : Expr}
    (opened : opening.kind = .leftParen) (derived : Derives .expression ts e)
    (closed : closing.kind = .rightParen)
    (inner : Settles (Fits limit .expression e) (rule limit depth .expression) ts e) :
    Settles (Fits limit .primary (.grouping e)) (rule limit (depth + 1) .primary)
      (opening :: (ts ++ [closing])) (.grouping e) := by
  have usable : opening.kind ≠ .error := by rw [opened]; decide
  have opens : opening? opening = some .group := by simp [opening?, opened]
  have shape : opening :: (ts ++ [closing]) = [opening] ++ (ts ++ ([closing] ++ [])) := by simp
  rw [shape]
  refine Settles.bind (Settles.takeAt? usable opens)
    (Settles.bind inner (Settles.step (Settles.expect closed (by decide) _) (Settles.pure _))
      fun s rest fits => ?_) fun s rest _ => ?_
  · exact fits.part (Nat.le_refl _) (closes_cons closed (by decide) (by decide) _)
  · rw [List.append_assoc]
    exact clear_of_derives derived _

section Words
variable {limit depth : Nat} {t : Token} {Q : State → List Token → Prop}
  (clear : ∀ s rest, Q s rest → Clear rest)
include clear

private theorem settles_constant {value : Value} (usable : t.kind ≠ .error)
    (opens : opening? t = some (.constant value)) :
    Settles Q (rule limit (depth + 1) .primary) [t] (.literal value) :=
  Settles.bind (Settles.takeAt? usable opens) (Settles.pure _) clear

private theorem settles_name (sort : t.kind = .identifier) :
    Settles Q (rule limit (depth + 1) .primary) [t] (.reference t) := by
  have usable : t.kind ≠ .error := by rw [sort]; decide
  have opens : opening? t = some (.name t) := by simp [opening?, sort]
  exact Settles.bind (Settles.takeAt? usable opens) (Settles.pure _) clear

end Words

theorem settles_of_succ {limit : Nat} {r : Rule} {ts : List Token} {e : Expr}
    {faults : List Diagnostic} {Q : State → List Token → Prop}
    (each : ∀ depth, SettlesWith faults Q (rule limit (depth + 1) r) ts e) (depth : Nat) :
    SettlesWith faults Q (rule limit depth r) ts e := by
  cases depth with
  | zero => exact .inr (.here (fun _ => rfl) ts)
  | succ depth => exact each depth

theorem settles_rule {limit : Nat} {r : Rule} {ts : List Token} {e : Expr}
    (derived : Derives r ts e) (depth : Nat) :
    Settles (Fits limit r e) (rule limit depth r) ts e := by
  change SettlesWith [] (Fits limit r e) (rule limit depth r) ts e
  have clear {e : Expr} : ∀ s rest, Fits limit .primary e s rest → Clear rest :=
    fun s rest fits => fits.2.clear
  induction derived generalizing depth with
  | expression _ ih => exact settles_of_succ (fun depth => settles_expression (ih depth)) depth
  | chain level _ operators _ ih ihs =>
    exact settles_of_succ (fun depth => settles_chain level operators (ih depth)
      fun link member => ihs link member depth) depth
  | unassigned _ ih => exact settles_of_succ (fun depth => settles_unassigned (ih depth)) depth
  | assign _ sign _ ih ihs =>
    exact settles_of_succ (fun depth => settles_assign sign (ih depth) (ihs depth)) depth
  | unconditional _ ih =>
    exact settles_of_succ (fun depth => settles_unconditional (ih depth)) depth
  | conditional _ ask _ choose _ ih₁ ih₂ ih₃ =>
    exact settles_of_succ (fun depth =>
      settles_conditional ask choose (ih₁ depth) (ih₂ depth) (ih₃ depth)) depth
  | plain whole ih =>
    exact settles_of_succ (fun depth => (settles_plain whole (ih depth)).quiet) depth
  | unary sign right ih =>
    exact settles_of_succ (fun depth => (settles_unary sign right (ih depth)).quiet) depth
  | @constant t value word =>
    have opens : opening? t = some (.constant value) ∧ t.kind ≠ .error := by
      cases kind : t.kind <;> rw [kind] at word <;> cases word <;> simp [opening?, kind]
    exact settles_of_succ (fun _ => (settles_constant clear opens.2 opens.1).quiet) depth
  | @read t sort =>
    have opens : opening? t = some (.constant t.literal) ∧ t.kind ≠ .error := by
      rcases sort with sort | sort <;> simp [opening?, sort]
    exact settles_of_succ (fun _ => (settles_constant clear opens.2 opens.1).quiet) depth
  | name sort => exact settles_of_succ (fun _ => (settles_name clear sort).quiet) depth
  | grouping opened inner closed ih =>
    exact settles_of_succ (fun depth =>
      (settles_grouping opened inner closed (ih depth)).quiet) depth

end Scriptlet.Grammar
