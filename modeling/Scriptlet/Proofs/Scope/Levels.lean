import Scriptlet.Proofs.Scope.Frame
import Scriptlet.Scope.Basic

/-! The frames of a scope as levels, the innermost being level zero. A name is
assigned at the nearest level that binds it. What a run may do to the scope it starts in is
said level by level: which names it adds to the innermost frame, and which variables it may
set. Of two runs the second one starts where the first has ended, so what it assigns to a name
that the first has declared stays in the innermost frame. -/
namespace Scriptlet

namespace Scope

/-- The level of the global frame. -/
def height : Scope → Nat
  | global _ => 0
  | child _ parent => parent.height + 1

/-- The value that the frame at a level has for a name. -/
def own? : Scope → Nat → String → Option Value
  | global frame, 0, name | child frame _, 0, name => frame.get? name
  | global _, _ + 1, _ => none
  | child _ parent, level + 1, name => parent.own? level name

def Binds (scope : Scope) (level : Nat) (name : String) : Prop :=
  (scope.own? level name).isSome = true

/-- The level binds the name, and none further in does. -/
structure Nearest (scope : Scope) (level : Nat) (name : String) : Prop where
  here : scope.Binds level name
  inside : ∀ inner < level, ¬ scope.Binds inner name

section Operations
variable {scope scope' : Scope} {frame : Frame} {parent : Scope} {name : String} {value : Value}

@[simp] theorem binds_child_zero : (child frame parent).Binds 0 name ↔ frame.has name = true :=
  Iff.rfl

@[simp] theorem binds_child_succ (level : Nat) :
    (child frame parent).Binds (level + 1) name ↔ parent.Binds level name :=
  Iff.rfl

theorem nearest_zero : scope.Nearest 0 name ↔ scope.Binds 0 name :=
  ⟨fun nearest => nearest.here, fun here => ⟨here, nofun⟩⟩

theorem nearest_child_succ (level : Nat) :
    (child frame parent).Nearest (level + 1) name ↔
      frame.has name = false ∧ parent.Nearest level name := by
  constructor
  · intro nearest
    refine ⟨Bool.eq_false_iff.2 (nearest.inside 0 (Nat.succ_pos level)), nearest.here, ?_⟩
    intro inner further
    exact nearest.inside (inner + 1) (Nat.succ_lt_succ further)
  · rintro ⟨absent, nearest⟩
    refine ⟨nearest.here, fun inner further => ?_⟩
    cases inner with
    | zero => exact Bool.eq_false_iff.1 absent
    | succ inner => exact nearest.inside inner (Nat.lt_of_succ_lt_succ further)

theorem own?_define (level : Nat) (other : String) :
    (scope.define name value).own? level other =
      if level = 0 ∧ other = name then some value else scope.own? level other := by
  cases scope <;> cases level <;> simp [define, own?, Frame.get?_define]

theorem height_define : (scope.define name value).height = scope.height := by
  cases scope <;> rfl

theorem height_assign? (assigned : scope.assign? name value = some scope') :
    scope'.height = scope.height := by
  induction scope generalizing scope' with
  | global frame =>
    simp only [assign?, Option.ite_none_right_eq_some, Option.some.injEq] at assigned
    rw [← assigned.2]
    rfl
  | child frame parent ih =>
    unfold assign? at assigned
    split at assigned
    · cases assigned
      rfl
    · obtain ⟨parent', further, rfl⟩ := Option.map_eq_some_iff.1 assigned
      exact congrArg (· + 1) (ih further)

theorem own?_assign? (assigned : scope.assign? name value = some scope') :
    ∃ nearest, scope.Nearest nearest name ∧ ∀ level other,
      scope'.own? level other =
        if level = nearest ∧ other = name then some value else scope.own? level other := by
  induction scope generalizing scope' with
  | global frame =>
    simp only [assign?, Option.ite_none_right_eq_some, Option.some.injEq] at assigned
    obtain ⟨bound, rfl⟩ := assigned
    exact ⟨0, nearest_zero.2 bound, @own?_define (.global frame) name value⟩
  | child frame parent ih =>
    unfold assign? at assigned
    split at assigned
    · rename_i bound
      cases assigned
      exact ⟨0, nearest_zero.2 bound, @own?_define (.child frame parent) name value⟩
    · rename_i absent
      obtain ⟨parent', further, rfl⟩ := Option.map_eq_some_iff.1 assigned
      obtain ⟨nearest, here, set⟩ := ih further
      refine ⟨nearest + 1, (nearest_child_succ nearest).2 ⟨Bool.eq_false_iff.2 absent, here⟩, ?_⟩
      intro level other
      cases level with
      | zero => simp [own?]
      | succ level => simpa [own?] using set level other

end Operations

end Scope

open Scope

/-- What a run may do to the scope it starts in: the frames stay, the innermost one gains the
declared names and no frame gains or loses any other name; and a variable that gets another
value is one of the innermost frame with a declared name, or the nearest one of a target. -/
structure Alters (declared targets : List String) (before after : Scope) : Prop where
  height : after.height = before.height
  enclosing : ∀ level name, after.Binds (level + 1) name ↔ before.Binds (level + 1) name
  innermost : ∀ name, after.Binds 0 name ↔ before.Binds 0 name ∨ name ∈ declared
  values : ∀ level name value, before.own? level name = some value →
    after.own? level name = some value ∨ (level = 0 ∧ name ∈ declared) ∨
      (name ∈ targets ∧ before.Nearest level name)

namespace Alters
variable {declared declared' targets targets' : List String} {before middle after : Scope}

theorem refl (targets : List String) (scope : Scope) : Alters [] targets scope scope where
  height := rfl
  enclosing _ _ := Iff.rfl
  innermost name := by simp
  values _ _ _ found := .inl found

theorem widen (alters : Alters declared targets before after) (fewer : targets ⊆ targets') :
    Alters declared targets' before after where
  height := alters.height
  enclosing := alters.enclosing
  innermost := alters.innermost
  values level name value found := by
    rcases alters.values level name value found with kept | here | ⟨target, nearest⟩
    · exact .inl kept
    · exact .inr (.inl here)
    · exact .inr (.inr ⟨fewer target, nearest⟩)

theorem binds_iff (alters : Alters declared targets before after) {name : String}
    (undeclared : name ∉ declared) (level : Nat) :
    after.Binds level name ↔ before.Binds level name := by
  cases level with
  | zero => simp [alters.innermost, undeclared]
  | succ level => exact alters.enclosing level name

theorem nearest_of_undeclared (alters : Alters declared targets before after) {name : String}
    (undeclared : name ∉ declared) {level : Nat} (nearest : after.Nearest level name) :
    before.Nearest level name := by
  have same := alters.binds_iff undeclared
  refine ⟨(same level).1 nearest.here, fun inner further => ?_⟩
  exact mt (same inner).2 (nearest.inside inner further)

/-- Two runs, one after the other: the targets of the second one that the first has declared
are variables of the innermost frame. -/
theorem trans (first : Alters declared targets before middle)
    (second : Alters declared' targets' middle after) :
    Alters (declared ++ declared') (targets ++ targets'.filter (· ∉ declared)) before after where
  height := second.height.trans first.height
  enclosing level name := (second.enclosing level name).trans (first.enclosing level name)
  innermost name := by
    rw [second.innermost, first.innermost, or_assoc, List.mem_append]
  values level name value found := by
    rcases first.values level name value found with kept | ⟨rfl, here⟩ | ⟨target, nearest⟩
    · rcases second.values level name value kept with kept | ⟨rfl, here⟩ | ⟨target, nearest⟩
      · exact .inl kept
      · exact .inr (.inl ⟨rfl, List.mem_append_right _ here⟩)
      · by_cases shadowed : name ∈ declared
        · -- the innermost frame binds it in between, so that is the nearest level there
          have bound := (first.innermost name).2 (.inr shadowed)
          have here : level = 0 := (Nat.eq_zero_or_pos level).resolve_right fun outside =>
            nearest.inside 0 outside bound
          exact .inr (.inl ⟨here, List.mem_append_left _ shadowed⟩)
        · have free : name ∈ targets'.filter (· ∉ declared) := by simp [target, shadowed]
          have began := first.nearest_of_undeclared shadowed nearest
          exact .inr (.inr ⟨List.mem_append_right _ free, began⟩)
    · exact .inr (.inl ⟨rfl, List.mem_append_left _ here⟩)
    · exact .inr (.inr ⟨List.mem_append_left _ target, nearest⟩)

theorem define (name : String) (value : Value) (scope : Scope) :
    Alters [name] [] scope (scope.define name value) where
  height := height_define
  enclosing level other := by simp [Binds, own?_define]
  innermost other := by
    by_cases same : other = name <;> simp [Binds, own?_define, same]
  values level other old found := by
    rw [own?_define]
    by_cases here : level = 0 ∧ other = name
    · exact .inr (.inl ⟨here.1, by simp [here.2]⟩)
    · rw [if_neg here]
      exact .inl found

theorem assign? {name : String} {value : Value} {scope scope' : Scope}
    (assigned : scope.assign? name value = some scope') : Alters [] [name] scope scope' := by
  obtain ⟨nearest, here, set⟩ := own?_assign? assigned
  have same : ∀ level other, scope'.Binds level other ↔ scope.Binds level other := by
    intro level other
    unfold Binds
    rw [set]
    split
    · rename_i hit
      obtain ⟨rfl, rfl⟩ := hit
      exact iff_of_true rfl here.here
    · rfl
  refine ⟨height_assign? assigned, fun level => same (level + 1), fun other => ?_, ?_⟩
  · simp [same 0 other]
  · intro level other old found
    rw [set]
    by_cases hit : level = nearest ∧ other = name
    · obtain ⟨rfl, rfl⟩ := hit
      exact .inr (.inr ⟨by simp, here⟩)
    · rw [if_neg hit]
      exact .inl found

/-- What is done inside a block is done to the scopes around it, one level further out. -/
theorem closed {scope inner : Scope} (inside : Alters declared targets scope.opened inner) :
    Alters [] targets scope inner.closed := by
  obtain ⟨frame, parent, rfl⟩ : ∃ frame parent, inner = .child frame parent := by
    cases inner with
    | global frame => cases inside.height
    | child frame parent => exact ⟨frame, parent, rfl⟩
  have same : ∀ level name, parent.Binds level name ↔ scope.Binds level name := inside.enclosing
  refine ⟨Nat.succ.inj inside.height, fun level => same (level + 1), fun name => ?_, ?_⟩
  · rw [or_iff_left List.not_mem_nil]
    exact same 0 name
  · intro level name value found
    rcases inside.values (level + 1) name value found with kept | ⟨here, _⟩ | ⟨target, nearest⟩
    · exact .inl kept
    · cases here
    · exact .inr (.inr ⟨target, ((nearest_child_succ level).1 nearest).2⟩)

end Alters

end Scriptlet
