import Scriptlet.Proofs.Scope.History
import Scriptlet.Scope.Basic

/-! The scopes of a running program among those of a forest. A program looks at one
scope and those around it only, so it keeps their frames as a chain. In every forest
that operations lead to, each scope has its chain, and what is done in a scope does the
same to the forest and to the chain. -/
namespace Scriptlet.Scope.Forest

/-- The frames of a scope and of the scopes around it. -/
inductive Chain (forest : Forest) : Nat → Scope → Prop
  | global {scope frame} (node : forest.nodes[scope]? = some ⟨frame, none⟩) :
      Chain forest scope (.global frame)
  | child {scope parent frame outer} (node : forest.nodes[scope]? = some ⟨frame, some parent⟩)
      (older : parent < scope) (further : Chain forest parent outer) :
      Chain forest scope (.child frame outer)

section Nodes
variable {forest : Forest} {scope : Nat} {node : Node}

private theorem own?_node (found : forest.nodes[scope]? = some node) (name : String) :
    forest.own? scope name = node.frame.get? name := by
  unfold own?
  rw [found]
  rfl

private theorem parent?_node (found : forest.nodes[scope]? = some node) :
    forest.parent? scope = node.parent := by
  unfold parent?
  rw [found]
  rfl

private theorem node_define_ne {other : Nat} (apart : other ≠ scope) (name : String) (value : Value) :
    (forest.define other name value).nodes[scope]? = forest.nodes[scope]? := by
  unfold define
  rw [Array.getElem?_modify, if_neg apart]

private theorem node_define (found : forest.nodes[scope]? = some node) (name : String) (value : Value) :
    (forest.define scope name value).nodes[scope]? =
      some { node with frame := node.frame.define name value } := by
  unfold define
  rw [Array.getElem?_modify, if_pos rfl, found]
  rfl

private theorem node_child (found : forest.nodes[scope]? = some node) (other : Nat) :
    (forest.child other).2.nodes[scope]? = some node := by
  have present := (Array.getElem?_eq_some_iff.1 found).1
  unfold child
  rw [Array.getElem?_push, if_neg (Nat.ne_of_lt present), found]

private theorem binder?_le {binder : Nat} {name : String} (bound : forest.binder? scope name = some binder) :
    binder ≤ scope := by
  induction scope using Nat.strongRecOn with
  | ind scope ih =>
    rw [binder?_eq] at bound
    split at bound
    · cases bound
      exact Nat.le_refl _
    · obtain ⟨parent, _, further⟩ := Option.bind_eq_some_iff.1 bound
      split at further
      · rename_i older
        exact Nat.le_trans (ih parent older further) (Nat.le_of_lt older)
      · cases further

end Nodes

namespace Chain
variable {forest : Forest} {scope : Nat} {inner : Scope}

private theorem define_younger (chain : Chain forest scope inner) {other : Nat} (younger : scope < other)
    (name : String) (value : Value) : Chain (forest.define other name value) scope inner := by
  induction chain with
  | global node => exact .global ((node_define_ne (Nat.ne_of_gt younger) name value).trans node)
  | child node older _ ih =>
    exact .child ((node_define_ne (Nat.ne_of_gt younger) name value).trans node) older
      (ih (Nat.lt_trans older younger))

theorem define (chain : Chain forest scope inner) (name : String) (value : Value) :
    Chain (forest.define scope name value) scope (inner.define name value) := by
  cases chain with
  | global node => exact .global (node_define node name value)
  | child node older further =>
    exact .child (node_define node name value) older (further.define_younger older name value)

theorem kept (chain : Chain forest scope inner) (other : Nat) :
    Chain (forest.child other).2 scope inner := by
  induction chain with
  | global node => exact .global (node_child node other)
  | child node older _ ih => exact .child (node_child node other) older ih

theorem present (chain : Chain forest scope inner) : scope < forest.nodes.size := by
  cases chain with
  | global node | child node => exact (Array.getElem?_eq_some_iff.1 node).1

theorem opened (chain : Chain forest scope inner) :
    Chain (forest.child scope).2 (forest.child scope).1 inner.opened := by
  refine .child ?_ chain.present (chain.kept scope)
  exact Array.getElem?_push_size

theorem get? (chain : Chain forest scope inner) (name : String) :
    forest.get? scope name = inner.get? name := by
  induction chain with
  | @global scope frame node =>
    rw [get?_eq, binder?_eq, own?_node node, parent?_node node]
    unfold Scope.get?
    cases has : frame.get? name with
    | none => rfl
    | some value => exact (own?_node node name).trans has
  | @child scope parent frame outer node older _ ih =>
    rw [get?_eq] at ih
    rw [get?_eq, binder?_eq, own?_node node, parent?_node node]
    unfold Scope.get?
    cases has : frame.get? name with
    | some value => exact (own?_node node name).trans has
    | none =>
      dsimp only [Option.isSome_none, Option.bind_some]
      rw [if_neg Bool.false_ne_true, if_pos older]
      exact ih

theorem assign (chain : Chain forest scope inner) (name : String) (value : Value) :
    Option.Rel (fun forest inner => Chain forest scope inner) (forest.assign? scope name value)
      (inner.assign? name value) := by
  induction chain with
  | @global scope frame node =>
    rw [assign?_eq, binder?_eq, own?_node node, parent?_node node]
    unfold Scope.assign? Frame.has
    cases has : frame.get? name with
    | none => exact .none
    | some old => exact .some (Chain.define (.global node) name value)
  | @child scope parent frame outer node older further ih =>
    rw [assign?_eq] at ih
    rw [assign?_eq, binder?_eq, own?_node node, parent?_node node]
    unfold Scope.assign? Frame.has
    cases has : frame.get? name with
    | some old => exact .some (Chain.define (.child node older further) name value)
    | none =>
      dsimp only [Option.isSome_none, Option.bind_some]
      rw [if_neg Bool.false_ne_true, if_neg Bool.false_ne_true, if_pos older]
      cases bound : forest.binder? parent name with
      | none =>
        rw [bound] at ih
        generalize outer.assign? name value = result at ih
        cases ih
        exact .none
      | some binder =>
        rw [bound] at ih
        generalize outer.assign? name value = result at ih
        cases ih with
        | some around =>
          have apart := Nat.ne_of_lt (Nat.lt_of_le_of_lt (binder?_le bound) older)
          exact .some (.child ((node_define_ne apart name value).trans node) older around)

end Chain

theorem exists_chain {history : History} (valid : history.Valid) {scope : Nat}
    (present : scope < history.size) : ∃ inner, Chain (after history) scope inner := by
  have represents := represents_after valid
  induction scope using Nat.strongRecOn with
  | ind scope ih =>
    rw [← represents.size] at present
    have node := Array.getElem?_eq_getElem present
    cases inside : (after history).nodes[scope].parent with
    | none => exact ⟨_, .global (node.trans (by rw [← inside]))⟩
    | some parent =>
      have among := (parent?_node node).trans inside
      rw [represents.parents] at among
      have older := (History.lt_of_parent? valid among).1
      rw [represents.size] at present
      obtain ⟨outer, further⟩ := ih parent older (Nat.lt_trans older present)
      exact ⟨_, .child (node.trans (by rw [← inside])) older further⟩

/-- A scope of a forest that operations lead to does what its chain of frames does: it
reads the same values, is set in the same frame, and opens a scope with the chain of an
opened block. -/
theorem chain_after {history : History} (valid : history.Valid) {scope : Nat}
    (present : scope < history.size) :
    ∃ inner, Chain (after history) scope inner ∧
      (∀ name, (after history).get? scope name = inner.get? name) ∧
      (∀ name value, Chain ((after history).define scope name value) scope
        (inner.define name value)) ∧
      (∀ name value, Option.Rel (fun forest inner => Chain forest scope inner)
        ((after history).assign? scope name value) (inner.assign? name value)) ∧
      Chain ((after history).child scope).2 ((after history).child scope).1 inner.opened := by
  obtain ⟨inner, chain⟩ := exists_chain valid present
  exact ⟨inner, chain, chain.get?, chain.define, chain.assign, chain.opened⟩

end Scriptlet.Scope.Forest
