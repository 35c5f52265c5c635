import Mathlib.Data.List.Forall2
import Scriptlet.Proofs.Parse.Steps
import Scriptlet.Program.Basic

/-! The parser looks at the kinds and the values of tokens only. If every token
is replaced by one of the same kind and value, every run takes the same course:
it makes the tree with the tokens replaced, and reports the same faults, each at
the replacement of its token. -/
namespace Scriptlet.Parse
open State

/-- A replacement of tokens that the parser cannot tell apart, with what it
does to reports. -/
structure Renaming (f : Token → Token) (D : Diagnostic → Diagnostic → Prop) : Prop where
  kind : ∀ t, (f t).kind = t.kind
  literal : ∀ t, (f t).literal = t.literal
  atToken : ∀ t fault, D (.atToken t fault) (.atToken (f t) fault)
  lexical : ∀ t, D (.lexical t) (.lexical (f t))

/-- The second state is the first one with its tokens replaced. -/
structure Mirrors (f : Token → Token) (D : Diagnostic → Diagnostic → Prop) (s s' : State) :
    Prop where
  rest : s'.rest = s.rest.map f
  finish : ∀ fault, D (.atToken s.finish fault) (.atToken s'.finish fault)
  reports : List.Forall₂ D s.reports s'.reports
  nesting : s'.nesting = s.nesting
  blocks : s'.blocks = s.blocks

/-- Two runs that end alike, in states one of which mirrors the other. -/
inductive Alike {α β : Type} (f : Token → Token) (D : Diagnostic → Diagnostic → Prop) (g : α → β) :
    EStateM.Result Abort State α → EStateM.Result Abort State β → Prop
  | ok {a s s'} (mirrors : Mirrors f D s s') : Alike f D g (.ok a s) (.ok (g a) s')
  | error {abort s s'} (mirrors : Mirrors f D s s') : Alike f D g (.error abort s) (.error abort s')

def Parallel {α β : Type} (f : Token → Token) (D : Diagnostic → Diagnostic → Prop) (g : α → β)
    (p : Parser α) (q : Parser β) : Prop :=
  ∀ s s', Mirrors f D s s' → Alike f D g (p s) (q s')

section Steps
variable {f : Token → Token} {D : Diagnostic → Diagnostic → Prop} {s s' : State}

theorem Renaming.isLexicalError (unseen : Renaming f D) :
    State.isLexicalError ∘ f = State.isLexicalError := by
  funext t
  simp [State.isLexicalError, unseen.kind]

theorem Mirrors.settled (unseen : Renaming f D) (mirrors : Mirrors f D s s') :
    Mirrors f D s.settled s'.settled where
  rest := by
    simp only [State.settled, mirrors.rest, List.dropWhile_map, unseen.isLexicalError]
  finish := mirrors.finish
  reports := by
    simp only [State.settled, mirrors.rest, List.takeWhile_map, unseen.isLexicalError,
      List.map_map]
    refine List.rel_append (List.rel_reverse ?_) mirrors.reports
    rw [List.forall₂_map_left_iff, List.forall₂_map_right_iff]
    exact List.forall₂_same.2 fun t _ => unseen.lexical t
  nesting := mirrors.nesting
  blocks := mirrors.blocks

theorem Mirrors.advanced (unseen : Renaming f D) (mirrors : Mirrors f D s s') :
    Mirrors f D s.advanced s'.advanced := by
  refine Mirrors.settled unseen
    ⟨?_, mirrors.finish, mirrors.reports, mirrors.nesting, mirrors.blocks⟩
  rw [mirrors.rest, List.map_tail]

theorem Mirrors.report (unseen : Renaming f D) (mirrors : Mirrors f D s s') (t : Token)
    (fault : Fault) : Mirrors f D (s.report t fault) (s'.report (f t) fault) :=
  ⟨mirrors.rest, mirrors.finish, .cons (unseen.atToken t fault) mirrors.reports,
    mirrors.nesting, mirrors.blocks⟩

theorem Mirrors.reportNext (unseen : Renaming f D) (mirrors : Mirrors f D s s') (fault : Fault) :
    Mirrors f D (s.report s.next fault) (s'.report s'.next fault) := by
  refine ⟨mirrors.rest, mirrors.finish, .cons ?_ mirrors.reports, mirrors.nesting, mirrors.blocks⟩
  unfold State.next
  rw [mirrors.rest]
  cases s.rest with
  | nil => exact mirrors.finish fault
  | cons t more => exact unseen.atToken t fault

theorem Mirrors.errorBehind? (unseen : Renaming f D) (mirrors : Mirrors f D s s') :
    s'.errorBehind? = s.errorBehind?.map f := by
  unfold State.errorBehind?
  rw [mirrors.rest, ← List.map_tail, List.head?_map, Option.filter_map, unseen.isLexicalError]

theorem Mirrors.stopped (unseen : Renaming f D) (mirrors : Mirrors f D s s') :
    Mirrors f D s.stopped s'.stopped := by
  unfold State.stopped
  rw [mirrors.errorBehind? unseen]
  cases s.errorBehind? with
  | none => exact mirrors
  | some e =>
    refine ⟨?_, mirrors.finish, mirrors.reports, mirrors.nesting, mirrors.blocks⟩
    exact (congrArg List.tail mirrors.rest).trans List.map_tail.symm

theorem Mirrors.sees (unseen : Renaming f D) (mirrors : Mirrors f D s s') (kind : Kind) :
    s'.sees kind = s.sees kind := by
  unfold State.sees
  rw [mirrors.rest]
  cases s.rest with
  | nil => rfl
  | cons t more => simp only [List.map_cons, unseen.kind]

theorem Mirrors.atBlockEnd (unseen : Renaming f D) (mirrors : Mirrors f D s s') :
    s'.atBlockEnd = s.atBlockEnd := by
  unfold State.atBlockEnd
  rw [mirrors.sees unseen, mirrors.blocks]

theorem Mirrors.atEnd (mirrors : Mirrors f D s s') : s'.atEnd = s.atEnd := by
  unfold State.atEnd
  rw [mirrors.rest, List.isEmpty_map]

theorem seek_nil {last : Token} (empty : s.rest = []) : s.seek last = s := by
  rw [State.seek.eq_def]
  split
  · rfl
  · rename_i upcoming
    rw [empty] at upcoming
    cases upcoming

theorem seek_cons {last t : Token} {more : List Token} (upcoming : s.rest = t :: more) :
    s.seek last =
      if last.kind = .semicolon ∨ t.kind.startsStatement ∨ s.atBlockEnd then s
      else s.advanced.seek t := by
  rw [State.seek.eq_def]
  split
  · rename_i empty
    rw [upcoming] at empty
    cases empty
  · rename_i same
    rw [upcoming] at same
    cases same
    rfl

theorem Mirrors.seek (unseen : Renaming f D) (mirrors : Mirrors f D s s') (last : Token) :
    Mirrors f D (s.seek last) (s'.seek (f last)) := by
  fun_induction State.seek s last generalizing s' with
  | case1 s last empty =>
    rw [seek_nil (by rw [mirrors.rest, empty]; rfl)]
    exact mirrors
  | case2 s last t more upcoming stop =>
    have upcoming' : s'.rest = f t :: more.map f := by rw [mirrors.rest, upcoming]; rfl
    rw [seek_cons upcoming', unseen.kind, unseen.kind, mirrors.atBlockEnd unseen, if_pos stop]
    exact mirrors
  | case3 s last t more upcoming go ih =>
    have upcoming' : s'.rest = f t :: more.map f := by rw [mirrors.rest, upcoming]; rfl
    rw [seek_cons upcoming', unseen.kind, unseen.kind, mirrors.atBlockEnd unseen, if_neg go]
    exact ih (mirrors.advanced unseen)

theorem Mirrors.synchronized (unseen : Renaming f D) (mirrors : Mirrors f D s s') :
    Mirrors f D s.synchronized s'.synchronized := by
  unfold State.synchronized
  rw [mirrors.rest, mirrors.atBlockEnd unseen]
  cases upcoming : s.rest with
  | nil => exact mirrors
  | cons t more =>
    dsimp only [List.map_cons]
    split
    · exact mirrors
    · exact (mirrors.advanced unseen).seek unseen t

end Steps

end Scriptlet.Parse
