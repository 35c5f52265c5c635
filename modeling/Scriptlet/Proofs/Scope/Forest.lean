import Scriptlet.Proofs.Scope.Frame
import Scriptlet.Scope.Forest

/-! The forest of scopes seen cell by cell: what each scope has for a name itself, and
where it was made. Every operation changes one cell or none, and no operation moves a
scope to another parent. -/
namespace Scriptlet.Scope.Forest

def own? (forest : Forest) (scope : Nat) (name : String) : Option Value :=
  forest.nodes[scope]?.bind fun node => node.frame.get? name

def parent? (forest : Forest) (scope : Nat) : Option Nat := forest.nodes[scope]?.bind Node.parent

section Cells
variable (forest : Forest) (scope other : Nat) (name key : String) (value : Value)

@[simp] theorem size_child : (forest.child scope).2.nodes.size = forest.nodes.size + 1 :=
  Array.size_push _

@[simp] theorem size_define : (forest.define scope name value).nodes.size = forest.nodes.size :=
  Array.size_modify

@[simp] theorem own?_child : (forest.child scope).2.own? other name = forest.own? other name := by
  unfold own? child
  rw [Array.getElem?_push]
  split
  · rename_i newest
    rw [newest, Array.getElem?_eq_none (Nat.le_refl _)]
    rfl
  · rfl

theorem parent?_child :
    (forest.child scope).2.parent? other =
      if other = forest.nodes.size then some scope else forest.parent? other := by
  unfold parent? child
  rw [Array.getElem?_push]
  split <;> rfl

theorem own?_define (present : scope < forest.nodes.size) :
    (forest.define scope name value).own? other key =
      if other = scope ∧ key = name then some value else forest.own? other key := by
  unfold own? define
  rw [Array.getElem?_modify]
  by_cases same : scope = other
  · subst same
    simp only [if_true, true_and, Array.getElem?_eq_getElem present, Option.map_some,
      Option.bind_some, Frame.get?_define]
  · rw [if_neg same, if_neg fun both => same both.1.symm]

@[simp] theorem parent?_define :
    (forest.define scope name value).parent? other = forest.parent? other := by
  unfold parent? define
  rw [Array.getElem?_modify]
  split
  · cases forest.nodes[other]? <;> rfl
  · rfl

theorem binder?_eq :
    forest.binder? scope name =
      if (forest.own? scope name).isSome then some scope
      else (forest.parent? scope).bind fun parent =>
        if parent < scope then forest.binder? parent name else none := by
  rw [binder?]
  unfold own? parent? Frame.has
  cases forest.nodes[scope]? with
  | none => rfl
  | some node =>
    simp only [Option.bind_some]
    split
    · rfl
    · cases node.parent <;> rfl

theorem get?_eq : forest.get? scope name = (forest.binder? scope name).bind (forest.own? · name) :=
  rfl

theorem assign?_eq :
    forest.assign? scope name value = (forest.binder? scope name).map (forest.define · name value) :=
  by cases bound : forest.binder? scope name <;> simp [assign?, bound]

end Cells

theorem lt_of_own? {forest : Forest} {scope : Nat} {name : String}
    (has : (forest.own? scope name).isSome = true) : scope < forest.nodes.size := by
  rcases Nat.lt_or_ge scope forest.nodes.size with present | absent
  · exact present
  · unfold own? at has
    rw [Array.getElem?_eq_none absent] at has
    cases has

section Answers
variable {forest : Forest} {scope binder : Nat} {name : Token} {value : Value}

theorem own?_of_binder? {key : String} (bound : forest.binder? scope key = some binder) :
    (forest.own? binder key).isSome = true := by
  induction scope using Nat.strongRecOn with
  | ind scope ih =>
    rw [binder?_eq] at bound
    split at bound
    · rename_i here
      cases bound
      exact here
    · obtain ⟨parent, _, further⟩ := Option.bind_eq_some_iff.1 bound
      split at further
      · rename_i older
        exact ih parent older further
      · cases further

theorem perform_get (bound : forest.binder? scope name.lexeme = some binder)
    (has : forest.own? binder name.lexeme = some value) :
    forest.perform (.get scope name) = (.ok (.found value), forest) := by
  have found : forest.get? scope name.lexeme = some value := by rw [get?_eq, bound]; exact has
  simp only [perform, found]

theorem perform_get_unbound (unbound : forest.binder? scope name.lexeme = none) :
    forest.perform (.get scope name) = (.error (.undefinedVariable name), forest) := by
  have absent : forest.get? scope name.lexeme = none := by rw [get?_eq, unbound]; rfl
  simp only [perform, absent]

theorem perform_assign (bound : forest.binder? scope name.lexeme = some binder) :
    forest.perform (.assign scope name value) =
      (.ok .done, forest.define binder name.lexeme value) := by
  simp only [perform, assign?_eq, bound, Option.map_some]

theorem perform_assign_unbound (unbound : forest.binder? scope name.lexeme = none) :
    forest.perform (.assign scope name value) = (.error (.undefinedVariable name), forest) := by
  simp only [perform, assign?_eq, unbound, Option.map_none]

end Answers

theorem perform_get_still (forest : Forest) (scope : Nat) (name : Token) :
    (forest.perform (.get scope name)).2 = forest := by
  cases bound : forest.binder? scope name.lexeme with
  | none => rw [perform_get_unbound bound]
  | some binder =>
    obtain ⟨value, has⟩ := Option.isSome_iff_exists.1 (own?_of_binder? bound)
    rw [perform_get bound has]

theorem perform_error {forest : Forest} {operation : Operation} {error : RuntimeError}
    (failed : (forest.perform operation).1 = .error error) :
    (forest.perform operation).2 = forest := by
  cases operation with
  | child | define => cases failed
  | get scope name => exact perform_get_still forest scope name
  | assign scope name value =>
    cases bound : forest.binder? scope name.lexeme with
    | none => rw [perform_assign_unbound bound]
    | some binder =>
      rw [perform_assign bound] at failed
      cases failed

end Scriptlet.Scope.Forest
