import Scriptlet.Value

/-! Scopes: the global frame, and inside it the frames of the open blocks. A name means the
variable of the innermost frame that has it. Defining a variable of a frame again keeps its
place, so the order in a frame is that of first definitions. -/
namespace Scriptlet

structure Frame where
  bindings : List (String × Value)
  deriving DecidableEq, Inhabited

namespace Frame

def empty : Frame := ⟨[]⟩

def get? (frame : Frame) (name : String) : Option Value := frame.bindings.lookup name

def has (frame : Frame) (name : String) : Bool := (frame.get? name).isSome

private def put (name : String) (value : Value) : List (String × Value) → List (String × Value)
  | [] => [(name, value)]
  | (other, old) :: more =>
    if name == other then (other, value) :: more else (other, old) :: put name value more

/-- Sets a variable of this scope, a new one where there is none. -/
def define (frame : Frame) (name : String) (value : Value) : Frame :=
  ⟨put name value frame.bindings⟩

theorem define_nil (name : String) (value : Value) : define ⟨[]⟩ name value = ⟨[(name, value)]⟩ :=
  rfl

theorem define_cons (name other : String) (value old : Value) (more : List (String × Value)) :
    define ⟨(other, old) :: more⟩ name value =
      if name = other then ⟨(other, value) :: more⟩
      else ⟨(other, old) :: (define ⟨more⟩ name value).bindings⟩ := by
  simp only [define, put, beq_iff_eq]
  split <;> rfl

@[simp] theorem get?_empty (name : String) : empty.get? name = none := rfl

theorem get?_define (frame : Frame) (name other : String) (value : Value) :
    (frame.define name value).get? other = if other = name then some value else frame.get? other := by
  obtain ⟨bindings⟩ := frame
  unfold define get?
  dsimp only
  induction bindings with
  | nil => by_cases same : other = name <;>
        simp [put, List.lookup_cons, same, beq_eq_false_iff_ne.2]
  | cons binding more ih =>
    obtain ⟨key, old⟩ := binding
    by_cases hit : name = key
    · subst hit
      by_cases same : other = name <;>
        simp [put, List.lookup_cons, same, beq_eq_false_iff_ne.2]
    · by_cases same : other = key
      · subst same
        simp [put, hit, Ne.symm hit]
      · simp only [put, beq_iff_eq, hit, if_false, List.lookup_cons, beq_eq_false_iff_ne.2 same]
        exact ih

end Frame

inductive Scope
  | global (frame : Frame)
  | child (frame : Frame) (parent : Scope)
  deriving DecidableEq, Inhabited

namespace Scope

def get? : Scope → String → Option Value
  | global frame, name => frame.get? name
  | child frame parent, name =>
    match frame.get? name with
    | some value => some value
    | none => parent.get? name

def define : Scope → String → Value → Scope
  | global frame, name, value => global (frame.define name value)
  | child frame parent, name, value => child (frame.define name value) parent

/-- Sets the variable that a name means here, if there is one. -/
def assign? : Scope → String → Value → Option Scope
  | global frame, name, value =>
    if frame.has name then some (global (frame.define name value)) else none
  | child frame parent, name, value =>
    if frame.has name then some (child (frame.define name value) parent)
    else (parent.assign? name value).map (child frame)

def opened (scope : Scope) : Scope := child .empty scope

def closed : Scope → Scope
  | global frame => global frame
  | child _ parent => parent

def globals : Scope → Frame
  | global frame => frame
  | child _ parent => parent.globals

end Scope

end Scriptlet
