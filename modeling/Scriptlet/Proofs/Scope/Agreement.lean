import Scriptlet.Proofs.Scope.Frame
import Scriptlet.Proofs.Scope.UndoLog

/-! The scopes of a running program and the flat store with its logs agree: the
store gives every name the meaning that the scopes give it, and undoing the log
of a block gives the store that agrees with the scopes around the block. Every
step keeps this, so both semantics run alike until the depth runs out. -/
namespace Scriptlet

private theorem Scope.get?_child (frame : Frame) (parent : Scope) (name : String) :
    (Scope.child frame parent).get? name = (frame.get? name).or (parent.get? name) := by
  cases found : frame.get? name <;> simp [Scope.get?, found]

namespace Flat

namespace Store
variable {a b : Store}

def frame (store : Store) : Frame := ⟨store.entries⟩

private theorem eq_of_frame (same : a.frame = b.frame) : a = b := by
  cases a
  cases same
  rfl

theorem get?_eq (store : Store) (name : String) : store.get? name = store.frame.get? name := by
  obtain ⟨entries⟩ := store
  show (entries.find? (·.1 == name)).map (·.2) = entries.lookup name
  induction entries with
  | nil => rfl
  | cons entry more ih =>
    obtain ⟨key, old⟩ := entry
    rw [List.find?_cons, List.lookup_cons, ← ih, BEq.comm (a := name)]
    cases key == name <;> rfl

theorem has_eq (store : Store) (name : String) : store.has name = store.frame.has name := by
  rw [Frame.has, ← get?_eq, has, get?, Option.isSome_map, List.isSome_find?]

theorem frame_set (store : Store) (name : String) (value : Value) :
    (store.set name value).frame = store.frame.define name value := by
  obtain ⟨entries⟩ := store
  unfold frame set has
  dsimp only
  induction entries with
  | nil => rfl
  | cons entry more ih =>
    obtain ⟨key, old⟩ := entry
    rw [Frame.define_cons, ← ih]
    by_cases same : name = key
    · subst same
      simp
    · rw [if_neg same]
      have apart : key ≠ name := Ne.symm same
      cases listed : more.any (·.1 == name) <;> simp [listed, apart]

theorem frame_forget (store : Store) (name : String) :
    (store.forget name).frame = store.frame.forget name := by
  unfold frame forget Frame.forget
  simp only [bne_comm]

theorem get?_set (store : Store) (name other : String) (value : Value) :
    (store.set name value).get? other = if other = name then some value else store.get? other := by
  rw [get?_eq, frame_set, Frame.get?_define, get?_eq]

theorem has_set (store : Store) (name other : String) (value : Value) :
    (store.set name value).has other = (decide (other = name) || store.has other) := by
  rw [has_eq, frame_set, Frame.has_define, has_eq]

end Store

namespace Log
variable {store : Store} {name other : String}
open Store

private theorem restore_set (store : Store) (name : String) (value : Value) :
    restore (store.set name value) (name, store.get? name) = store := by
  apply eq_of_frame
  cases found : store.get? name with
  | none =>
    rw [restore_none, frame_forget, frame_set, Frame.forget_define, Frame.forget_of_absent]
    rwa [← get?_eq]
  | some old =>
    rw [restore_some, frame_set, frame_set, Frame.define_define, Frame.define_of_get?]
    rwa [← get?_eq]

private theorem restore_set_same (store : Store) (name : String) (value : Value) (old : Option Value) :
    restore (store.set name value) (name, old) = restore store (name, old) := by
  apply eq_of_frame
  cases old with
  | none => rw [restore_none, restore_none, frame_forget, frame_forget, frame_set,
      Frame.forget_define]
  | some old => rw [restore_some, restore_some, frame_set, frame_set, frame_set,
      Frame.define_define]

private theorem restore_set_ne (present : store.has name = true) (apart : other ≠ name) (value : Value)
    (old : Option Value) :
    restore (store.set name value) (other, old) = (restore store (other, old)).set name value := by
  apply eq_of_frame
  rw [has_eq] at present
  cases old with
  | none => rw [restore_none, restore_none, frame_set, frame_forget, frame_forget, frame_set,
      Frame.forget_define_ne _ apart]
  | some old => rw [restore_some, restore_some, frame_set, frame_set, frame_set, frame_set,
      Frame.define_comm present apart]

private theorem has_restore (present : store.has name = true) (apart : other ≠ name)
    (old : Option Value) : (restore store (other, old)).has name = true := by
  cases old with
  | none =>
    rw [has_eq, Frame.has] at present ⊢
    rwa [restore_none, frame_forget, Frame.get?_forget, if_neg (Ne.symm apart)]
  | some old => rw [restore_some, has_set, present, Bool.or_true]

/-- A second declaration of a name in one block leaves no trace. -/
private theorem undo_set_of_has {log : Log} {store : Store} {name : String}
    (recorded : log.has name = true) (present : store.has name = true) (value : Value) :
    log.undo (store.set name value) = log.undo store := by
  induction log generalizing store with
  | nil => cases recorded
  | cons entry log ih =>
    obtain ⟨key, old⟩ := entry
    simp only [undo, List.foldl_cons] at ih ⊢
    by_cases same : key = name
    · subst same
      rw [restore_set_same]
    · rw [restore_set_ne present same]
      refine ih ?_ (has_restore present same old)
      simpa [has, same] using recorded

/-- A name that the block has not declared keeps what is assigned to it inside. -/
private theorem undo_set_of_not_has {log : Log} {store : Store} {name : String}
    (unrecorded : log.has name = false) (present : store.has name = true) (value : Value) :
    log.undo (store.set name value) = (log.undo store).set name value := by
  induction log generalizing store with
  | nil => rfl
  | cons entry log ih =>
    obtain ⟨key, old⟩ := entry
    simp only [has, List.any_cons, Bool.or_eq_false_iff, beq_eq_false_iff_ne] at unrecorded
    simp only [undo, List.foldl_cons] at ih ⊢
    rw [restore_set_ne present unrecorded.1]
    exact ih unrecorded.2 (has_restore present unrecorded.1 old)

end Log

/-- The scopes and the store with the logs of the open blocks mean the same. -/
inductive Agrees : Scope → Store → List Log → Prop
  | global (store : Store) : Agrees (.global store.frame) store []
  | child {frame parent outer store log logs} (around : Agrees parent outer logs)
      (reads : ∀ name, store.get? name = (frame.get? name).or (outer.get? name))
      (recorded : ∀ name, log.has name = frame.has name) (undone : log.undo store = outer) :
      Agrees (.child frame parent) store (log :: logs)

namespace Agrees
variable {scope scope' : Scope} {store : Store} {logs : List Log}

theorem get? (agrees : Agrees scope store logs) (name : String) :
    scope.get? name = store.get? name := by
  induction agrees with
  | global store => exact (store.get?_eq name).symm
  | child around reads recorded undone ih =>
    rw [reads, ← ih, Scope.get?_child]

theorem outermost (agrees : Agrees scope store []) : scope = .global store.frame := by
  cases agrees
  rfl

theorem opened (agrees : Agrees scope store logs) : Agrees scope.opened store ([] :: logs) :=
  .child agrees (fun _ => rfl) (fun _ => rfl) rfl

private theorem present_of_frame {frame : Frame} {outer : Store} {name : String}
    (reads : store.get? name = (frame.get? name).or (outer.get? name))
    (found : frame.has name = true) : store.has name = true := by
  rw [Store.has_eq, Frame.has, ← Store.get?_eq, reads]
  unfold Frame.has at found
  cases there : frame.get? name with
  | none => rw [there] at found; cases found
  | some value => rfl

private theorem reads_define {frame : Frame} {outer : Store}
    (reads : ∀ name, store.get? name = (frame.get? name).or (outer.get? name))
    (name : String) (value : Value) (other : String) :
    (store.set name value).get? other =
      ((frame.define name value).get? other).or (outer.get? other) := by
  rw [Store.get?_set, Frame.get?_define]
  by_cases same : other = name
  · simp [same]
  · simp only [same, if_false]
    exact reads other

theorem define (agrees : Agrees scope store logs) (name : String) (value : Value)
    (output : String) :
    Agrees (scope.define name value) ((Machine.mk store logs output).declare name value).store
      ((Machine.mk store logs output).declare name value).logs := by
  cases agrees with
  | global store =>
    have same : (Scope.global store.frame).define name value = .global (store.set name value).frame :=
      congrArg Scope.global (store.frame_set name value).symm
    rw [same]
    exact .global _
  | @child frame parent outer _ log logs around reads recorded undone =>
    unfold Machine.declare
    dsimp only
    refine .child around (reads_define reads name value) ?_ ?_
    · intro other
      rw [Frame.has_define, ← recorded]
      unfold Log.record
      by_cases before : log.has name = true
      · rw [if_pos before]
        by_cases same : other = name
        · simp [same, before]
        · simp [same]
      · rw [if_neg before]
        by_cases same : other = name
        · simp [Log.has, same]
        · simp [Log.has, same, Ne.symm same]
    · unfold Log.record
      by_cases before : log.has name = true
      · rw [if_pos before, Log.undo_set_of_has before _ value, undone]
        exact present_of_frame (reads name) (by rw [← recorded]; exact before)
      · rw [if_neg before]
        unfold Log.undo at undone ⊢
        rw [List.foldl_cons, Log.restore_set, undone]

theorem assign (agrees : Agrees scope store logs) (name : String) (value : Value) :
    (store.has name = false ∧ scope.assign? name value = none) ∨
      (store.has name = true ∧ ∃ scope', scope.assign? name value = some scope' ∧
        Agrees scope' (store.set name value) logs) := by
  induction agrees with
  | global store =>
    unfold Scope.assign?
    rw [← Store.has_eq, ← Store.frame_set]
    cases found : store.has name with
    | false => exact .inl ⟨rfl, by simp⟩
    | true => exact .inr ⟨rfl, _, if_pos rfl, .global _⟩
  | @child frame parent outer store log logs around reads recorded undone ih =>
    unfold Scope.assign?
    cases found : frame.has name with
    | true =>
      have present : store.has name = true := present_of_frame (reads name) found
      refine .inr ⟨present, _, if_pos rfl, .child around (reads_define reads name value) ?_ ?_⟩
      · intro other
        rw [Frame.has_define, recorded]
        by_cases same : other = name
        · simp [same, found]
        · simp [same]
      · rw [Log.undo_set_of_has (by rw [recorded]; exact found) present, undone]
    | false =>
      -- declared further out, so the log of the block does not touch the name
      have outside : store.get? name = outer.get? name := by
        unfold Frame.has at found
        rw [reads, Option.isSome_eq_false_iff, Option.isNone_iff_eq_none] at *
        rw [found]; rfl
      have same_presence : store.has name = outer.has name := by
        simp only [Store.has_eq, Frame.has, ← Store.get?_eq, outside]
      rcases ih with ⟨absent, refused⟩ | ⟨present, parent', assigned, agrees⟩
      · refine .inl ⟨same_presence.trans absent, ?_⟩
        rw [refused]
        rfl
      · refine .inr ⟨same_presence.trans present, .child frame parent', by rw [assigned]; rfl, ?_⟩
        refine .child agrees (fun other => ?_) recorded ?_
        · rw [Store.get?_set, Store.get?_set]
          by_cases same : other = name
          · subst same
            unfold Frame.has at found
            rw [Option.isSome_eq_false_iff, Option.isNone_iff_eq_none] at found
            simp [found]
          · simp only [same, if_false]
            exact reads other
        · rw [Log.undo_set_of_not_has (by rw [recorded]; exact found)
            (same_presence.trans present), undone]

end Agrees

end Flat

end Scriptlet
