import Mathlib.Data.List.Forall2
import Mathlib.Data.List.TakeWhile
import Scriptlet.Proofs.Parse.Progress

/-! Lexical errors among the reports of a parse. Only they are reported without a place.
At every point of a run the tokens of kind error that have been passed are told one for one
by the reports so far, and the others are still to come: each is reported when it is passed,
wherever that happens, and it is passed once. What is told of it is its message, unless the
levels of recursion ran out on it. So a parse reports all of them, each once and in their
order, whatever else it reports, and finds no expression where there is one. -/
namespace Scriptlet

private theorem Place.suffix_eq_empty {place : Place} : place.suffix = "" ↔ place = .unnamed := by
  cases place with
  | lexeme text =>
    refine iff_of_false (fun empty => ?_) nofun
    have letters := congrArg String.toList empty
    simp [Place.suffix] at letters
  | finish => exact iff_of_false (by decide) nofun
  | unnamed => exact iff_of_true rfl rfl

namespace Parse
open State

def isPlaceless (d : Diagnostic) : Bool := d.place.suffix == ""

def lexicalReports (tokens : List Token) : List Diagnostic :=
  (tokens.filter (·.kind == .error)).map .lexical

private theorem isPlaceless_atToken {t : Token} (usable : t.kind ≠ .error) (fault : Fault) :
    isPlaceless (.atToken t fault) = false := by
  rw [isPlaceless, beq_eq_false_iff_ne, ne_eq, Place.suffix_eq_empty]
  unfold Diagnostic.atToken
  dsimp only
  split
  · nofun
  · contradiction
  · nofun

private theorem filter_lexical (tokens : List Token) :
    (tokens.map Diagnostic.lexical).filter isPlaceless = tokens.map .lexical := by
  refine List.filter_eq_self.2 fun d member => ?_
  obtain ⟨t, _, rfl⟩ := List.mem_map.1 member
  rfl

/-- What a report can tell of a token of kind error. -/
def Tells (t : Token) (d : Diagnostic) : Prop := d = .lexical t ∨ d = .atToken t .tooDeep

private theorem isPlaceless_of_tells {t : Token} {d : Diagnostic} (sort : t.kind = .error)
    (tells : Tells t d) : isPlaceless d = true := by
  rcases tells with rfl | rfl
  · rfl
  · unfold isPlaceless Diagnostic.atToken
    rw [sort]
    rfl

private theorem tells_lexical (tokens : List Token) :
    List.Forall₂ Tells tokens (tokens.map .lexical) := by
  rw [List.forall₂_map_right_iff]
  exact List.forall₂_same.2 fun t _ => .inl rfl

private theorem filter_error_split (tokens : List Token) :
    tokens.filter (·.kind == .error) =
      tokens.takeWhile isLexicalError ++
        (tokens.dropWhile isLexicalError).filter (·.kind == .error) := by
  have errors : (tokens.takeWhile isLexicalError).filter (·.kind == .error) =
      tokens.takeWhile isLexicalError :=
    List.filter_eq_self.2 fun t member => List.mem_takeWhile_imp (p := isLexicalError) member
  have whole := congrArg (List.filter (·.kind == .error))
    (List.takeWhile_append_dropWhile (p := isLexicalError) (l := tokens)).symm
  rwa [List.filter_append, errors] at whole

theorem Settled.usable_next {s : State} (settled : Settled s) (finish : s.finish.kind ≠ .error) :
    s.next.kind ≠ .error := by
  unfold State.next
  cases upcoming : s.rest with
  | nil => exact finish
  | cons t more => exact settled t (by rw [upcoming]; rfl)

/-- Of these tokens of kind error, those that have been passed are told by the reports, and
the others are to come. The one that is to come next is behind the next token. -/
structure Told (errors : List Token) (s : State) : Prop where
  settled : Settled s
  finish : s.finish.kind ≠ .error
  split : ∃ passed, errors = passed ++ s.rest.filter (·.kind == .error) ∧
    List.Forall₂ Tells passed (s.reports.reverse.filter isPlaceless)

namespace Told
variable {errors : List Token} {s : State}

theorem usable_next (told : Told errors s) : s.next.kind ≠ .error :=
  told.settled.usable_next told.finish

theorem report (told : Told errors s) {t : Token} (usable : t.kind ≠ .error) (fault : Fault) :
    Told errors (s.report t fault) := by
  refine ⟨told.settled, told.finish, ?_⟩
  obtain ⟨passed, split, tells⟩ := told.split
  refine ⟨passed, split, ?_⟩
  simpa [State.report, isPlaceless_atToken usable] using tells

private theorem of_settled (finish : s.finish.kind ≠ .error)
    (split : ∃ passed, errors = passed ++ s.rest.filter (·.kind == .error) ∧
      List.Forall₂ Tells passed (s.reports.reverse.filter isPlaceless)) :
    Told errors s.settled := by
  obtain ⟨passed, shape, tells⟩ := split
  refine ⟨fun _ head => usable_of_dropWhile head, finish,
    passed ++ s.rest.takeWhile isLexicalError, ?_, ?_⟩
  · rw [shape, filter_error_split, List.append_assoc]
    rfl
  · simp only [State.settled, List.reverse_append, List.reverse_reverse, List.filter_append,
      filter_lexical]
    exact List.rel_append tells (tells_lexical _)

theorem advanced (told : Told errors s) : Told errors s.advanced := by
  obtain ⟨passed, split, tells⟩ := told.split
  refine of_settled told.finish ⟨passed, split.trans ?_, tells⟩
  have head := told.settled
  cases upcoming : s.rest with
  | nil => rfl
  | cons t more =>
    have usable := head t (by rw [upcoming]; rfl)
    rw [List.filter_cons_of_neg (by simpa using usable), List.tail_cons]

theorem overrun (told : Told errors s) {t e : Token} {more : List Token}
    (upcoming : s.rest = t :: e :: more) (sort : e.kind = .error) :
    Told errors (s.overrun e more) := by
  obtain ⟨passed, split, tells⟩ := told.split
  have usable := told.settled t (by rw [upcoming]; rfl)
  refine of_settled told.finish ⟨passed ++ [e], ?_, ?_⟩
  · rw [split, upcoming, List.filter_cons_of_neg (by simpa using usable),
      List.filter_cons_of_pos (by simpa using sort), List.append_assoc]
    rfl
  · have placeless := isPlaceless_of_tells sort (.inr rfl)
    rw [List.reverse_cons, List.filter_append, List.filter_singleton, placeless]
    exact List.rel_append tells (.cons (.inr rfl) .nil)

end Told

theorem finish_start (tokens : List Token) : (State.start tokens).finish.kind = .eof := by
  show ((tokens.find? (·.kind == .eof)).getD (Token.eof 1)).kind = .eof
  cases found : tokens.find? (·.kind == .eof) with
  | none => rfl
  | some t => exact beq_iff_eq.1 (List.find?_some (p := fun t : Token => t.kind == .eof) found)

theorem rest_statements (limits : Limits) {s : State} (outside : s.blocks = 0) :
    (statements limits s).2.rest = [] :=
  List.isEmpty_iff.1 (ends_allDeclarations (progresses_declaration limits) outside)

theorem ok_of_soleExpression {limits : Limits} {s s' : State} {value : Expr}
    (ran : soleExpression limits s = .ok value s') :
    rule limits.nesting limits.depth .expression s = .ok value s' ∧ s'.atEnd = true := by
  obtain ⟨found, middle, read, ended⟩ := ok_of_bind ran
  obtain ⟨same, middle', got, ended⟩ := ok_of_bind ended
  cases got
  split at ended
  · rename_i finished
    cases ended
    exact ⟨read, finished⟩
  · cases ended

end Parse

end Scriptlet
