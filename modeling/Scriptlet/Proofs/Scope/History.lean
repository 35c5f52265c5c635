import Scriptlet.Proofs.Scope.Forest

/-! The scopes of a forest as a store, against the history of the operations on
them. What a name means in a scope is said by the history alone: its binder is the
nearest scope outwards in which the name has been defined, and its value is the one
that was written last to that binder, by a definition there or by an assignment from
a scope that had the binder then. -/
namespace Scriptlet.Scope.Forest

/-- Operations that were made one after the other, the latest first. -/
abbrev History := List Operation

/-- The forest that a history leads to, from the one global scope. -/
def after : History → Forest
  | [] => initial
  | operation :: earlier => ((after earlier).perform operation).2

namespace History

def size : History → Nat
  | [] => 1
  | .child _ :: earlier => size earlier + 1
  | .define _ _ _ :: earlier | .get _ _ :: earlier | .assign _ _ _ :: earlier => size earlier

def parent? : History → Nat → Option Nat
  | [], _ => none
  | .child parent :: earlier, scope =>
    if scope = size earlier then some parent else parent? earlier scope
  | .define _ _ _ :: earlier, scope | .get _ _ :: earlier, scope
  | .assign _ _ _ :: earlier, scope => parent? earlier scope

/-- Every operation was asked of a scope that was there. -/
def Valid : History → Prop
  | [] => True
  | operation :: earlier => operation.scope < size earlier ∧ Valid earlier

instance decideValid : (history : History) → Decidable history.Valid
  | [] => .isTrue trivial
  | _ :: earlier =>
    have := decideValid earlier
    inferInstanceAs (Decidable (_ ∧ _))

def Defined (history : History) (scope : Nat) (name : String) : Prop :=
  ∃ value, .define scope name value ∈ history

/-- The nearest scope outwards in which the name has been defined. -/
inductive Binder (history : History) (name : String) : Nat → Nat → Prop
  | here {scope} (defined : history.Defined scope name) : Binder history name scope scope
  | outwards {scope parent binder} (undefined : ¬ history.Defined scope name)
      (inside : history.parent? scope = some parent) (further : Binder history name parent binder) :
      Binder history name scope binder

/-- What an operation writes to a variable of a scope, given the history before it. -/
inductive Writes (earlier : History) (binder : Nat) : String → Operation → Value → Prop
  | define {name value} : Writes earlier binder name (.define binder name value) value
  | assign {scope name value} (bound : earlier.Binder name.lexeme scope binder) :
      Writes earlier binder name.lexeme (.assign scope name value) value

/-- The value that was written last to a variable of a scope. -/
inductive Latest (binder : Nat) (name : String) : History → Value → Prop
  | now {operation earlier value} (writes : Writes earlier binder name operation value) :
      Latest binder name (operation :: earlier) value
  | before {operation earlier value} (silent : ∀ new, ¬ Writes earlier binder name operation new)
      (latest : Latest binder name earlier value) : Latest binder name (operation :: earlier) value

section Parents
variable {history : History} {scope parent : Nat}

private theorem size_pos (history : History) : 0 < history.size := by
  fun_induction size history with
  | case1 => exact Nat.one_pos
  | case2 _ earlier ih => exact Nat.succ_pos _
  | case3 _ _ _ earlier ih | case4 _ _ earlier ih | case5 _ _ _ earlier ih => exact ih

theorem lt_of_parent? (valid : history.Valid) (inside : history.parent? scope = some parent) :
    parent < scope ∧ scope < history.size := by
  induction history with
  | nil => cases inside
  | cons operation earlier ih =>
    cases operation with
    | child outer =>
      rw [parent?] at inside
      split at inside
      · rename_i newest
        cases inside
        rw [newest]
        exact ⟨valid.1, Nat.lt_succ_self _⟩
      · have older := ih valid.2 inside
        exact ⟨older.1, Nat.lt_succ_of_lt older.2⟩
    | define | get | assign => exact ih valid.2 inside

theorem parent?_eq_none_iff (present : scope < history.size) :
    history.parent? scope = none ↔ scope = 0 := by
  induction history with
  | nil => exact ⟨fun _ => Nat.lt_one_iff.1 present, fun _ => rfl⟩
  | cons operation earlier ih =>
    cases operation with
    | child outer =>
      have some_scope := size_pos earlier
      rw [size] at present
      rw [parent?]
      split
      · simp only [reduceCtorEq, false_iff]
        omega
      · exact ih (by omega)
    | define | get | assign => exact ih present

end Parents

section Writes
variable {earlier : History} {operation : Operation} {binder : Nat} {name : String} {value : Value}

private theorem defined_cons {scope : Nat} :
    Defined (operation :: earlier) scope name ↔
      (∃ new, operation = .define scope name new) ∨ earlier.Defined scope name := by
  unfold Defined
  simp only [List.mem_cons, exists_or, eq_comm]

private theorem writes_define {scope : Nat} {other : String} {new : Value} :
    Writes earlier binder name (.define scope other new) value ↔
      (binder = scope ∧ name = other) ∧ value = new := by
  constructor
  · rintro ⟨⟩
    exact ⟨⟨rfl, rfl⟩, rfl⟩
  · rintro ⟨⟨rfl, rfl⟩, rfl⟩
    exact .define

private theorem writes_assign {scope : Nat} {target : Token} {new : Value} :
    Writes earlier binder name (.assign scope target new) value ↔
      (earlier.Binder target.lexeme scope binder ∧ name = target.lexeme) ∧ value = new := by
  constructor
  · rintro ⟨⟩
    exact ⟨⟨‹_›, rfl⟩, rfl⟩
  · rintro ⟨⟨bound, rfl⟩, rfl⟩
    exact .assign bound

private theorem latest_of_silent (silent : ∀ new, ¬ Writes earlier binder name operation new) :
    Latest binder name (operation :: earlier) value ↔ Latest binder name earlier value := by
  constructor
  · intro latest
    cases latest with
    | now writes => exact absurd writes (silent value)
    | before _ latest => exact latest
  · exact .before silent

private theorem latest_of_sole {scope : Nat} {target : String} {new : Value}
    (sole : ∀ binder name value,
      Writes earlier binder name operation value ↔ (binder = scope ∧ name = target) ∧ value = new) :
    Latest binder name (operation :: earlier) value ↔
      if binder = scope ∧ name = target then value = new else Latest binder name earlier value := by
  split
  · rename_i here
    constructor
    · intro latest
      cases latest with
      | now writes => exact ((sole _ _ _).1 writes).2
      | before silent _ => exact absurd ((sole _ _ new).2 ⟨here, rfl⟩) (silent new)
    · rintro rfl
      exact .now ((sole _ _ _).2 ⟨here, rfl⟩)
  · rename_i elsewhere
    exact latest_of_silent fun new writes => elsewhere ((sole _ _ _).1 writes).1

end Writes

end History

open History

/-- The forest holds what the history says. -/
structure Represents (history : History) (forest : Forest) : Prop where
  size : forest.nodes.size = history.size
  parents : ∀ scope, forest.parent? scope = history.parent? scope
  defined : ∀ scope name, (forest.own? scope name).isSome = true ↔ history.Defined scope name
  latest : ∀ scope name value,
    forest.own? scope name = some value ↔ Latest scope name history value

namespace Represents
variable {history earlier : History} {forest : Forest} {operation : Operation}

theorem initial : Represents [] initial where
  size := rfl
  parents scope := by cases scope <;> rfl
  defined scope name := by
    have nothing : Forest.initial.own? scope name = none := by cases scope <;> rfl
    rw [nothing]
    exact ⟨nofun, fun ⟨_, member⟩ => nomatch member⟩
  latest scope name value := by
    have nothing : Forest.initial.own? scope name = none := by cases scope <;> rfl
    rw [nothing]
    exact ⟨nofun, nofun⟩

theorem binder?_iff (represents : Represents history forest) (valid : history.Valid)
    {scope binder : Nat} {name : String} :
    forest.binder? scope name = some binder ↔ history.Binder name scope binder := by
  induction scope using Nat.strongRecOn with
  | ind scope ih =>
    rw [binder?_eq]
    split
    · rename_i has
      have defined := (represents.defined scope name).1 has
      constructor
      · rintro ⟨⟩
        exact .here defined
      · intro bound
        cases bound with
        | here => rfl
        | outwards undefined => exact absurd defined undefined
    · rename_i lacks
      have undefined := mt (represents.defined scope name).2 lacks
      rw [represents.parents, Option.bind_eq_some_iff]
      constructor
      · rintro ⟨parent, inside, further⟩
        have older := (lt_of_parent? valid inside).1
        rw [if_pos older] at further
        exact .outwards undefined inside ((ih parent older).1 further)
      · intro bound
        cases bound with
        | here defined => exact absurd defined undefined
        | @outwards _ parent _ _ inside further =>
          have older := (lt_of_parent? valid inside).1
          refine ⟨parent, inside, ?_⟩
          rw [if_pos older]
          exact (ih parent older).2 further

/-- A forest where nothing is written, to what was there before, still holds what the
history says. -/
private theorem unwritten (represents : Represents earlier forest)
    (size : History.size (operation :: earlier) = earlier.size)
    (parents : ∀ scope, History.parent? (operation :: earlier) scope = earlier.parent? scope)
    (silent : ∀ scope name new, ¬ Writes earlier scope name operation new)
    (defines : ∀ scope name,
      History.Defined (operation :: earlier) scope name ↔ earlier.Defined scope name) :
    Represents (operation :: earlier) forest where
  size := by rw [size, represents.size]
  parents scope := by rw [parents, represents.parents]
  defined scope name := by rw [defines, represents.defined]
  latest scope name value := by rw [latest_of_silent (silent scope name), represents.latest]

theorem written (represents : Represents earlier forest) {scope : Nat} {name : String}
    {value : Value} (present : scope < forest.nodes.size)
    (size : History.size (operation :: earlier) = earlier.size)
    (parents : ∀ other, History.parent? (operation :: earlier) other = earlier.parent? other)
    (sole : ∀ binder key new,
      Writes earlier binder key operation new ↔ (binder = scope ∧ key = name) ∧ new = value)
    (defines : ∀ other key, History.Defined (operation :: earlier) other key ↔
      (other = scope ∧ key = name) ∨ earlier.Defined other key) :
    Represents (operation :: earlier) (forest.define scope name value) where
  size := by rw [size_define, size, represents.size]
  parents other := by rw [parent?_define, parents, represents.parents]
  defined other key := by
    rw [own?_define _ _ _ _ _ _ present, defines, ← represents.defined]
    split <;> simp_all
  latest other key new := by
    rw [own?_define _ _ _ _ _ _ present, latest_of_sole sole, ← represents.latest]
    split
    · simp [eq_comm]
    · rfl

theorem step (represents : Represents earlier forest)
    (valid : History.Valid (operation :: earlier)) :
    Represents (operation :: earlier) (forest.perform operation).2 := by
  cases operation with
  | child parent =>
    have silent : ∀ binder name new, ¬ Writes earlier binder name (.child parent) new :=
      fun _ _ _ writes => by cases writes
    exact {
      size := by rw [History.size, ← represents.size]; exact size_child forest parent
      parents := fun scope => by
        rw [History.parent?, ← represents.size, ← represents.parents]
        exact parent?_child forest parent scope
      defined := fun scope name => by
        rw [defined_cons, ← represents.defined]
        simp [perform]
      latest := fun scope name value => by
        rw [latest_of_silent (silent scope name), ← represents.latest]
        simp [perform] }
  | define scope name value =>
    refine represents.written (represents.size ▸ valid.1) rfl (fun _ => rfl)
      (fun _ _ _ => writes_define) fun other key => ?_
    rw [defined_cons]
    simp [eq_comm]
  | get scope name =>
    rw [perform_get_still]
    refine represents.unwritten rfl (fun _ => rfl) (fun _ _ _ writes => ?_) fun other key => ?_
    · cases writes
    · simp [defined_cons]
  | assign scope name value =>
    have undefining : ∀ other key, History.Defined (.assign scope name value :: earlier) other key ↔
        earlier.Defined other key := fun other key => by simp [defined_cons]
    cases bound : forest.binder? scope name.lexeme with
    | none =>
      rw [perform_assign_unbound bound]
      refine represents.unwritten rfl (fun _ => rfl) (fun other key new writes => ?_) undefining
      have found := (represents.binder?_iff valid.2).2 (writes_assign.1 writes).1.1
      rw [bound] at found
      cases found
    | some binder =>
      have has := own?_of_binder? bound
      rw [perform_assign bound]
      refine represents.written (lt_of_own? has) rfl (fun _ => rfl) (fun other key new => ?_)
        fun other key => ?_
      · rw [writes_assign, ← represents.binder?_iff valid.2, bound, Option.some.injEq,
          @eq_comm _ other]
      · -- the binder has been defined before
        rw [undefining]
        refine ⟨.inr, fun either => either.elim ?_ id⟩
        rintro ⟨rfl, rfl⟩
        exact (represents.defined _ _).1 has

end Represents

section Answers
variable {history : History} {forest : Forest} {scope : Nat} {name : Token} {value : Value}

theorem Represents.unbound_iff (represents : Represents history forest) (valid : history.Valid)
    (scope : Nat) (name : String) :
    forest.binder? scope name = none ↔ ∀ binder, ¬ history.Binder name scope binder := by
  rw [Option.eq_none_iff_forall_ne_some]
  exact forall_congr' fun binder => not_congr (represents.binder?_iff valid)

private theorem Represents.own?_of_binder (represents : Represents history forest) (valid : history.Valid)
    {name : String} {binder : Nat} (bound : history.Binder name scope binder) :
    ∃ value, forest.own? binder name = some value ∧ Latest binder name history value := by
  have has := own?_of_binder? ((represents.binder?_iff valid).2 bound)
  obtain ⟨value, found⟩ := Option.isSome_iff_exists.1 has
  exact ⟨value, found, (represents.latest _ _ _).1 found⟩

theorem Represents.get_found_iff (represents : Represents history forest) (valid : history.Valid) :
    (forest.perform (.get scope name)).1 = .ok (.found value) ↔
      ∃ binder, history.Binder name.lexeme scope binder ∧
        Latest binder name.lexeme history value := by
  constructor
  · intro answered
    cases bound : forest.binder? scope name.lexeme with
    | none =>
      rw [perform_get_unbound bound] at answered
      cases answered
    | some binder =>
      obtain ⟨found, has⟩ := Option.isSome_iff_exists.1 (own?_of_binder? bound)
      rw [perform_get bound has] at answered
      cases answered
      exact ⟨binder, (represents.binder?_iff valid).1 bound, (represents.latest _ _ _).1 has⟩
  · rintro ⟨binder, bound, latest⟩
    rw [perform_get ((represents.binder?_iff valid).2 bound) ((represents.latest _ _ _).2 latest)]

theorem Represents.assign_done_iff (represents : Represents history forest)
    (valid : history.Valid) :
    (forest.perform (.assign scope name value)).1 = .ok .done ↔
      ∃ binder, history.Binder name.lexeme scope binder := by
  simp only [← represents.binder?_iff valid]
  cases bound : forest.binder? scope name.lexeme with
  | none =>
    rw [perform_assign_unbound bound]
    simp
  | some binder =>
    rw [perform_assign bound]
    simp

theorem Represents.error_iff (represents : Represents history forest) (valid : history.Valid)
    {answer : Except RuntimeError Answer} {error : RuntimeError}
    (unbound : forest.binder? scope name.lexeme = none → answer = .error (.undefinedVariable name))
    (bound : ∀ binder, forest.binder? scope name.lexeme = some binder →
      ∃ given, answer = .ok given) :
    answer = .error error ↔
      (∀ binder, ¬ history.Binder name.lexeme scope binder) ∧ error = .undefinedVariable name := by
  rw [← represents.unbound_iff valid]
  cases found : forest.binder? scope name.lexeme with
  | none =>
    rw [unbound found]
    simp [eq_comm]
  | some binder =>
    obtain ⟨given, answered⟩ := bound binder found
    rw [answered]
    simp

theorem Represents.get_error_iff (represents : Represents history forest) (valid : history.Valid)
    {error : RuntimeError} :
    (forest.perform (.get scope name)).1 = .error error ↔
      (∀ binder, ¬ history.Binder name.lexeme scope binder) ∧ error = .undefinedVariable name := by
  refine represents.error_iff valid (fun unbound => by rw [perform_get_unbound unbound])
    fun binder bound => ?_
  obtain ⟨value, has⟩ := Option.isSome_iff_exists.1 (own?_of_binder? bound)
  rw [perform_get bound has]
  exact ⟨_, rfl⟩

theorem Represents.assign_error_iff (represents : Represents history forest)
    (valid : history.Valid) {error : RuntimeError} :
    (forest.perform (.assign scope name value)).1 = .error error ↔
      (∀ binder, ¬ history.Binder name.lexeme scope binder) ∧ error = .undefinedVariable name := by
  refine represents.error_iff valid (fun unbound => by rw [perform_assign_unbound unbound])
    fun binder bound => ?_
  rw [perform_assign bound]
  exact ⟨_, rfl⟩

end Answers

private theorem parent?_perform {forest : Forest} (operation : Operation) {scope : Nat}
    (present : scope < forest.nodes.size) :
    (forest.perform operation).2.parent? scope = forest.parent? scope := by
  cases operation with
  | child outer => exact (parent?_child forest outer scope).trans (if_neg (Nat.ne_of_lt present))
  | define inner name value => exact parent?_define forest inner scope name value
  | get inner name => rw [perform_get_still]
  | assign inner name value =>
    cases bound : forest.binder? inner name.lexeme with
    | none => rw [perform_assign_unbound bound]
    | some binder =>
      rw [perform_assign bound]
      exact parent?_define forest binder scope name.lexeme value

/-- What the operations on a forest with this history answer and do. -/
structure Stores (history : History) (forest : Forest) : Prop where
  /-- A name has the value that was written last to its binder, and a binder has been written. -/
  get : ∀ scope name value, (forest.perform (.get scope name)).1 = .ok (.found value) ↔
    ∃ binder, history.Binder name.lexeme scope binder ∧ Latest binder name.lexeme history value
  written : ∀ scope name binder, history.Binder name scope binder →
    ∃ value, Latest binder name history value
  assign : ∀ scope name value, (forest.perform (.assign scope name value)).1 = .ok .done ↔
    ∃ binder, history.Binder name.lexeme scope binder
  /-- Without a binder, and only then, both fail at the name. -/
  get_error : ∀ scope name error, (forest.perform (.get scope name)).1 = .error error ↔
    (∀ binder, ¬ history.Binder name.lexeme scope binder) ∧ error = .undefinedVariable name
  assign_error : ∀ scope name value error,
    (forest.perform (.assign scope name value)).1 = .error error ↔
      (∀ binder, ¬ history.Binder name.lexeme scope binder) ∧ error = .undefinedVariable name
  /-- A failure and a reading change nothing, and a new scope is empty. -/
  failure : ∀ operation error, (forest.perform operation).1 = .error error →
    (forest.perform operation).2 = forest
  reading : ∀ scope name, (forest.perform (.get scope name)).2 = forest
  child : ∀ scope, (forest.perform (.child scope)).1 = .ok (.created history.size) ∧
    ∀ other key, (forest.perform (.child scope)).2.own? other key = forest.own? other key
  /-- An assignment changes one variable, which is there before; a definition one of its scope. -/
  assigned : ∀ scope name value binder, history.Binder name.lexeme scope binder →
    (forest.own? binder name.lexeme).isSome = true ∧
      ∀ other key, (forest.perform (.assign scope name value)).2.own? other key =
        if other = binder ∧ key = name.lexeme then some value else forest.own? other key
  defined : ∀ scope name value, scope < history.size →
    (forest.perform (.define scope name value)).1 = .ok .done ∧
      ∀ other key, (forest.perform (.define scope name value)).2.own? other key =
        if other = scope ∧ key = name then some value else forest.own? other key
  /-- The parent of a scope is the one that it was made in and stays so, it is older than the
  scope, and only the global scope has none. -/
  inside : ∀ scope, forest.parent? scope = history.parent? scope
  parents : ∀ operation scope, scope < history.size →
    (forest.perform operation).2.parent? scope = forest.parent? scope
  older : ∀ scope parent, forest.parent? scope = some parent → parent < scope
  outermost : ∀ scope < history.size, forest.parent? scope = none ↔ scope = 0
  /-- So every walk outwards ends. -/
  ends : WellFounded fun outer inner => forest.parent? inner = some outer

theorem represents_after {history : History} (valid : history.Valid) :
    Represents history (after history) := by
  induction history with
  | nil => exact .initial
  | cons operation earlier ih => exact (ih valid.2).step valid

/-- Whatever has been done to the scopes of a forest, they are a store for the names. -/
theorem stores_after (history : History) (valid : history.Valid) :
    Stores history (after history) := by
  have represents := represents_after valid
  have older : ∀ scope parent, (after history).parent? scope = some parent → parent < scope :=
    fun scope parent inside => (lt_of_parent? valid (represents.parents scope ▸ inside)).1
  exact {
    get := fun _ _ _ => represents.get_found_iff valid
    written := fun _ _ _ bound =>
      let ⟨value, _, latest⟩ := represents.own?_of_binder valid bound
      ⟨value, latest⟩
    assign := fun _ _ _ => represents.assign_done_iff valid
    get_error := fun _ _ _ => represents.get_error_iff valid
    assign_error := fun _ _ _ _ => represents.assign_error_iff valid
    failure := fun _ _ => perform_error
    reading := perform_get_still _
    child := fun scope => by
      rw [← represents.size]
      exact ⟨rfl, fun other key => own?_child _ _ _ _⟩
    assigned := fun scope name value binder bound => by
      obtain ⟨old, has, _⟩ := represents.own?_of_binder valid bound
      have present := lt_of_own? (Option.isSome_iff_exists.2 ⟨old, has⟩)
      rw [perform_assign ((represents.binder?_iff valid).2 bound), has]
      exact ⟨rfl, fun other key => own?_define _ _ _ _ _ _ present⟩
    defined := fun scope name value present => by
      rw [← represents.size] at present
      exact ⟨rfl, fun other key => own?_define _ _ _ _ _ _ present⟩
    parents := fun operation scope present => by
      rw [← represents.size] at present
      exact parent?_perform operation present
    inside := represents.parents
    older := older
    outermost := fun scope present => by
      rw [represents.parents]
      exact parent?_eq_none_iff present
    ends := Subrelation.wf (older _ _) Nat.lt_wfRel.wf }

/-- Two scopes in the global one, of which one defines a name again and the other
assigns it. -/
def siblings : History :=
  [.assign 2 ⟨.identifier, "a", 4, .nil⟩ (.text "b"), .define 1 "a" (.truth true), .child 0,
    .child 0, .define 0 "a" .nil]

/-- The assignment reaches the global scope, and not the other one. -/
theorem stores_after_siblings :
    siblings.Valid ∧
      ((after siblings).perform (.get 0 ⟨.identifier, "a", 5, .nil⟩)).1 =
        .ok (.found (.text "b")) ∧
      ((after siblings).perform (.get 1 ⟨.identifier, "a", 6, .nil⟩)).1 =
        .ok (.found (.truth true)) ∧
      ((after siblings).perform (.assign 2 ⟨.identifier, "b", 7, .nil⟩ .nil)).1 =
        .error (.undefinedVariable ⟨.identifier, "b", 7, .nil⟩) := by
  have valid : siblings.Valid := by decide
  have stores := stores_after siblings valid
  refine ⟨valid, (stores.get _ _ _).2 ⟨0, .here ⟨.nil, by decide⟩, ?_⟩,
    (stores.get _ _ _).2 ⟨1, .here ⟨.truth true, by decide⟩, ?_⟩,
    (stores.assign_error _ _ _ _).2 ⟨?_, rfl⟩⟩
  · refine .now (writes_assign.2 ⟨⟨.outwards ?_ rfl (.here ⟨.nil, by decide⟩), rfl⟩, rfl⟩)
    rintro ⟨value, member⟩
    simp at member
  · refine .before (fun new writes => ?_) (.now .define)
    obtain ⟨bound, _⟩ := (writes_assign.1 writes).1
    -- the walk from the other scope passes the global one and no more
    cases bound with
    | outwards _ inside further =>
      cases inside
      cases further with
      | outwards _ inside _ => cases inside
  · intro binder bound
    cases bound with
    | here defined =>
      obtain ⟨value, member⟩ := defined
      simp [siblings] at member
    | outwards _ inside further =>
      cases inside
      cases further with
      | here defined =>
        obtain ⟨value, member⟩ := defined
        simp [siblings] at member
      | outwards _ inside _ => cases inside

end Scriptlet.Scope.Forest
