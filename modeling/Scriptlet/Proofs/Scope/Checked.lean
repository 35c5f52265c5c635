import Scriptlet.Program.Basic
import Scriptlet.Proofs.Scope.Frame
import Scriptlet.Scope.Basic

/-! A check of the names of a program before it runs. It goes through the statements with a
stack of name sets, one for the global variables and one for each open block. A name must be
in one of the sets wherever an expression reads or assigns it; a declaration adds its name to
the innermost set, behind its own initializer. Scopes that bind all the names of the stack,
set by set, do so after each of their operations. -/
namespace Scriptlet

/-- Sets of names, that of the innermost block first. -/
abbrev Names := List (List String)

namespace Names

def has (names : Names) (name : String) : Bool := names.any (·.contains name)

def declare (names : Names) (name : String) : Names := (name :: names.headD []) :: names.tail

private theorem has_cons (known : List String) (around : Names) (name : String) :
    has (known :: around) name = true ↔ name ∈ known ∨ has around name = true := by
  simp [has]

end Names

/-- Every name that the expression reads or assigns is in one of the sets. -/
def Expr.isScoped (names : Names) : Expr → Bool
  | .literal _ => true
  | .grouping inner | .unary _ inner => inner.isScoped names
  | .binary left _ right | .comma left _ right => left.isScoped names && right.isScoped names
  | .conditional condition onTrue onFalse =>
    condition.isScoped names && onTrue.isScoped names && onFalse.isScoped names
  | .reference name => names.has name.lexeme
  | .assign name value => names.has name.lexeme && value.isScoped names

mutual

/-- The sets behind a statement whose names are all known. -/
def Stmt.check (names : Names) : Stmt → Option Names
  | .expression value | .print value => if value.isScoped names then some names else none
  | .declare name none => some (names.declare name.lexeme)
  | .declare name (some initializer) =>
    if initializer.isScoped names then some (names.declare name.lexeme) else none
  | .block body => (Stmt.checkAll ([] :: names) body).map List.tail

def Stmt.checkAll (names : Names) : List Stmt → Option Names
  | [] => some names
  | statement :: more =>
    match statement.check names with
    | some names => Stmt.checkAll names more
    | none => none

end

theorem Stmt.checkAll_cons {names after : Names} {statement : Stmt} {more : List Stmt} :
    Stmt.checkAll names (statement :: more) = some after ↔
      ∃ middle, statement.check names = some middle ∧ Stmt.checkAll middle more = some after := by
  rw [Stmt.checkAll]
  cases statement.check names <;> simp

/-- The second stack has some more names in its innermost set. -/
structure Grows (names names' : Names) : Prop where
  innermost : names.headD [] ⊆ names'.headD []
  around : names'.tail = names.tail

namespace Grows
variable {first second third : Names}

theorem refl (names : Names) : Grows names names := ⟨fun _ member => member, rfl⟩

theorem trans (early : Grows first second) (late : Grows second third) : Grows first third :=
  ⟨fun _ member => late.innermost (early.innermost member), late.around.trans early.around⟩

theorem declare (names : Names) (name : String) : Grows names (names.declare name) :=
  ⟨fun _ member => List.mem_cons_of_mem name member, rfl⟩

end Grows

mutual

theorem grows_check {names names' : Names} :
    (statement : Stmt) → statement.check names = some names' → Grows names names'
  | .expression value, checked | .print value, checked => by
    obtain ⟨-, same⟩ := Option.ite_none_right_eq_some.1 checked
    cases same
    exact .refl names
  | .declare name none, checked => by
    cases checked
    exact .declare names name.lexeme
  | .declare name (some initializer), checked => by
    obtain ⟨-, same⟩ := Option.ite_none_right_eq_some.1 checked
    cases same
    exact .declare names name.lexeme
  | .block body, checked => by
    -- the set of the block is taken away again
    obtain ⟨inner, inside, rfl⟩ := Option.map_eq_some_iff.1 checked
    rw [(grows_checkAll body inside).around]
    exact .refl names

theorem grows_checkAll {names names' : Names} :
    (program : List Stmt) → Stmt.checkAll names program = some names' → Grows names names'
  | [], checked => by
    cases checked
    exact .refl names
  | statement :: more, checked => by
    obtain ⟨middle, first, second⟩ := Stmt.checkAll_cons.1 checked
    exact (grows_check statement first).trans (grows_checkAll more second)

end

/-- Each scope binds the names of its set. -/
inductive Covers : Names → Scope → Prop
  | global {known frame} (bound : ∀ name ∈ known, frame.has name = true) :
      Covers [known] (.global frame)
  | child {known around frame parent} (bound : ∀ name ∈ known, frame.has name = true)
      (outside : Covers around parent) : Covers (known :: around) (.child frame parent)

namespace Covers
variable {names names' : Names} {scope : Scope} {name : String}

theorem ne_nil (covers : Covers names scope) : names ≠ [] := by cases covers <;> exact nofun

theorem fewer (grows : Grows names names') (here : names ≠ []) (covers : Covers names' scope) :
    Covers names scope := by
  obtain _ | ⟨known, around⟩ := names
  · contradiction
  · obtain ⟨innermost, same⟩ := grows
    cases covers with
    | global bound =>
      rw [← show [] = around from same]
      exact .global fun name member => bound name (innermost member)
    | child bound outside =>
      rw [← show _ = around from same]
      exact .child (fun name member => bound name (innermost member)) outside

theorem get? (covers : Covers names scope) (known : names.has name = true) :
    ∃ value, scope.get? name = some value := by
  induction covers with
  | global bound =>
    have here := ((Names.has_cons _ _ _).1 known).resolve_right nofun
    exact Option.isSome_iff_exists.1 (bound name here)
  | @child set around frame parent bound outside ih =>
    unfold Scope.get?
    cases found : frame.get? name with
    | some value => exact ⟨value, rfl⟩
    | none =>
      refine ih (((Names.has_cons _ _ _).1 known).resolve_left fun here => ?_)
      have present := bound name here
      rw [Frame.has, found] at present
      cases present

theorem put {frame : Frame} {set : List String} (bound : ∀ name ∈ set, frame.has name = true)
    (name : String) (value : Value) : ∀ other ∈ set, (frame.define name value).has other = true := by
  intro other member
  rw [Frame.has_define, bound other member, Bool.or_true]

theorem assign? (covers : Covers names scope) (known : names.has name = true) (value : Value) :
    ∃ scope', scope.assign? name value = some scope' ∧ Covers names scope' := by
  induction covers with
  | @global set frame bound =>
    have here := ((Names.has_cons _ _ _).1 known).resolve_right nofun
    refine ⟨.global (frame.define name value), ?_, .global (put bound name value)⟩
    rw [Scope.assign?, if_pos (bound name here)]
  | @child set around frame parent bound outside ih =>
    unfold Scope.assign?
    split
    · exact ⟨_, rfl, .child (put bound name value) outside⟩
    · rename_i absent
      have outer := ((Names.has_cons _ _ _).1 known).resolve_left fun here =>
        absent (bound name here)
      obtain ⟨parent', assigned, covered⟩ := ih outer
      rw [assigned]
      exact ⟨_, rfl, .child bound covered⟩

theorem define (covers : Covers names scope) (name : String) (value : Value) :
    Covers (names.declare name) (scope.define name value) := by
  have here : ∀ frame : Frame, (frame.define name value).has name = true := fun frame => by
    rw [Frame.has_define, decide_eq_true rfl, Bool.true_or]
  cases covers with
  | global bound => exact .global (List.forall_mem_cons.2 ⟨here _, put bound name value⟩)
  | child bound outside =>
    exact .child (List.forall_mem_cons.2 ⟨here _, put bound name value⟩) outside

theorem opened (covers : Covers names scope) : Covers ([] :: names) scope.opened :=
  .child nofun covers

theorem closed (covers : Covers names scope) (inside : names.tail ≠ []) :
    Covers names.tail scope.closed := by
  cases covers with
  | global bound => contradiction
  | child bound outside => exact outside

end Covers

end Scriptlet
