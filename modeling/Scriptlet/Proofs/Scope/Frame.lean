import Scriptlet.Scope.Basic

/-! How changes of a frame combine: setting a variable twice, setting two
variables, and taking one away again. Bindings keep their order throughout, so
frames are compared as they stand and not only by what they bind. -/
namespace Scriptlet

namespace Frame

def forget (frame : Frame) (name : String) : Frame :=
  ⟨frame.bindings.filter fun binding => name != binding.1⟩

theorem has_define (frame : Frame) (name other : String) (value : Value) :
    (frame.define name value).has other = (decide (other = name) || frame.has other) := by
  unfold has
  rw [get?_define]
  by_cases same : other = name <;> simp [same]

theorem get?_cons (name key : String) (old : Value) (more : List (String × Value)) :
    get? ⟨(key, old) :: more⟩ name = if name = key then some old else get? ⟨more⟩ name := by
  unfold get?
  by_cases same : name = key
  · simp [same]
  · simp [List.lookup_cons, same, beq_eq_false_iff_ne.2 same]

theorem define_define (frame : Frame) (name : String) (first second : Value) :
    (frame.define name first).define name second = frame.define name second := by
  obtain ⟨bindings⟩ := frame
  induction bindings with
  | nil => simp [define_nil, define_cons]
  | cons binding more ih =>
    obtain ⟨key, old⟩ := binding
    by_cases same : name = key
    · simp [define_cons, same]
    · simp only [define_cons, same, if_false]
      rw [ih]

theorem define_of_get? {frame : Frame} {name : String} {value : Value}
    (found : frame.get? name = some value) : frame.define name value = frame := by
  obtain ⟨bindings⟩ := frame
  induction bindings with
  | nil => cases found
  | cons binding more ih =>
    obtain ⟨key, old⟩ := binding
    rw [get?_cons] at found
    rw [define_cons]
    by_cases same : name = key
    · rw [if_pos same] at found ⊢
      cases found
      rfl
    · rw [if_neg same] at found ⊢
      rw [ih found]

theorem define_comm {frame : Frame} {name other : String} (present : frame.has name = true)
    (apart : other ≠ name) (value new : Value) :
    (frame.define name value).define other new = (frame.define other new).define name value := by
  obtain ⟨bindings⟩ := frame
  induction bindings with
  | nil => cases present
  | cons binding more ih =>
    obtain ⟨key, old⟩ := binding
    by_cases same : name = key
    · subst same
      simp [define_cons, apart]
    · have later : has ⟨more⟩ name = true := by
        unfold has at present ⊢
        rwa [get?_cons, if_neg same] at present
      by_cases hit : other = key
      · subst hit
        simp [define_cons, same]
      · simp only [define_cons, same, hit, if_false]
        rw [ih later]

theorem get?_forget (frame : Frame) (name other : String) :
    (frame.forget name).get? other = if other = name then none else frame.get? other := by
  obtain ⟨bindings⟩ := frame
  induction bindings with
  | nil => simp [forget, get?]
  | cons binding more ih =>
    obtain ⟨key, old⟩ := binding
    unfold forget at ih ⊢
    by_cases same : name = key
    · subst same
      simp only [List.filter_cons, bne_self_eq_false, Bool.false_eq_true, if_false]
      rw [ih, get?_cons]
      by_cases hit : other = name <;> simp [hit]
    · have kept : (name != key) = true := bne_iff_ne.2 same
      simp only [List.filter_cons, kept, if_true]
      rw [get?_cons, get?_cons, ih]
      by_cases hit : other = key
      · subst hit; simp [Ne.symm same]
      · simp [hit]

theorem forget_define (frame : Frame) (name : String) (value : Value) :
    (frame.define name value).forget name = frame.forget name := by
  obtain ⟨bindings⟩ := frame
  induction bindings with
  | nil => simp [define_nil, forget]
  | cons binding more ih =>
    obtain ⟨key, old⟩ := binding
    by_cases same : name = key
    · simp [define_cons, forget, same]
    · have kept : (name != key) = true := bne_iff_ne.2 same
      simp only [forget, Frame.mk.injEq] at ih
      simp only [define_cons, forget, same, if_false, List.filter_cons, kept, if_true, ih]

theorem forget_define_ne (frame : Frame) {name other : String} (apart : other ≠ name)
    (value : Value) :
    (frame.define name value).forget other = (frame.forget other).define name value := by
  obtain ⟨bindings⟩ := frame
  induction bindings with
  | nil => simp [define_nil, forget, apart]
  | cons binding more ih =>
    obtain ⟨key, old⟩ := binding
    simp only [forget] at ih ⊢
    by_cases same : name = key
    · subst same
      simp [define_cons, apart]
    · by_cases hit : other = key
      · subst hit
        simp [define_cons, same, ih]
      · have kept : (other != key) = true := bne_iff_ne.2 hit
        simp only [define_cons, same, if_false, List.filter_cons, kept, if_true]
        rw [← ih]

theorem forget_of_absent {frame : Frame} {name : String} (absent : frame.get? name = none) :
    frame.forget name = frame := by
  obtain ⟨bindings⟩ := frame
  induction bindings with
  | nil => rfl
  | cons binding more ih =>
    obtain ⟨key, old⟩ := binding
    rw [get?_cons] at absent
    split at absent
    · cases absent
    · rename_i apart
      have kept : (name != key) = true := bne_iff_ne.2 apart
      have rest := ih absent
      simp only [forget, Frame.mk.injEq] at rest
      simp only [forget, List.filter_cons, kept, if_true, rest]

end Frame

end Scriptlet
