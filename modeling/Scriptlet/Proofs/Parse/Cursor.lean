import Mathlib.Logic.Relation
import Scriptlet.Proofs.Parse.Reports

/-! A parse as a walk through its token list. A list that ends with a token of kind eof
is read at a cursor that starts at its first usable token, and every move of the parser
either leaves the cursor or takes it to the next usable token, at most to the first one
of kind eof, so nothing is ever read behind the list. Each declaration that a loop of the
parser asks for moves the cursor on, whatever becomes of it, and gives back the nesting
and the blocks it opened; so the loops come to an end by their own tests, and the parse
ends with nothing open at the first token of kind eof. -/
namespace Scriptlet.Parse
open State Grammar Relation

namespace Cursor

/-- The first place from here on whose token is not of kind error. There is nothing to
read behind the list. -/
def skip? (tokens : List Token) (i : Nat) : Option Nat :=
  match _found : tokens[i]? with
  | none => none
  | some t => if t.kind = .error then skip? tokens (i + 1) else some i
termination_by tokens.length - i
decreasing_by
  have inside := (List.getElem?_eq_some_iff.1 _found).1
  omega

/-- The place behind the token at hand and the errors after it. One of kind eof is never
passed. -/
def advance? (tokens : List Token) (i : Nat) : Option Nat :=
  match tokens[i]? with
  | none => none
  | some t => if t.kind = .eof then some i else skip? tokens (i + 1)

private theorem skip?_of_getElem? {tokens : List Token} {i : Nat} {t : Token}
    (found : tokens[i]? = some t) :
    skip? tokens i = if t.kind = .error then skip? tokens (i + 1) else some i := by
  rw [skip?.eq_def]
  split
  · rename_i nothing
    rw [found] at nothing
    cases nothing
  · rename_i u same
    rw [found] at same
    cases same
    rfl

private theorem getElem?_middle (passed : List Token) (t : Token) (more : List Token) :
    (passed ++ t :: more)[passed.length]? = some t := by
  rw [List.getElem?_append_right (Nat.le_refl _), Nat.sub_self, List.getElem?_cons_zero]

private theorem skip?_errors {errors : List Token} (all : ∀ t ∈ errors, t.kind = .error)
    (passed : List Token) {stop : Token} (usable : stop.kind ≠ .error) (more : List Token) :
    skip? (passed ++ (errors ++ stop :: more)) passed.length =
      some (passed.length + errors.length) := by
  induction errors generalizing passed with
  | nil =>
    rw [List.nil_append, skip?_of_getElem? (getElem?_middle passed stop more), if_neg usable]
    rfl
  | cons t errors ih =>
    obtain ⟨here, later⟩ := List.forall_mem_cons.1 all
    have behind := ih later (passed ++ [t])
    rw [List.length_append, List.append_assoc, List.singleton_append] at behind
    rw [List.cons_append, skip?_of_getElem? (getElem?_middle passed t _), if_pos here]
    refine behind.trans (congrArg some ?_)
    simp only [List.length_cons, List.length_nil]
    omega

end Cursor

namespace State

/-- The cursor of a state in a token list: the tokens from there to the first one of kind
eof are those to come. -/
structure At (tokens : List Token) (i : Nat) (s : State) : Prop where
  split : ∃ passed behind, tokens = passed ++ (s.rest ++ s.finish :: behind) ∧
    passed.length = i ∧ ∀ t ∈ passed ++ s.rest, t.kind ≠ .eof
  ended : s.finish.kind = .eof
  settled : Settled s

namespace At
variable {tokens : List Token} {i : Nat} {s s' : State}

theorem next (here : s.At tokens i) : tokens[i]? = some s.next := by
  obtain ⟨passed, behind, rfl, rfl, _⟩ := here.split
  unfold State.next
  cases s.rest with
  | nil => exact Cursor.getElem?_middle passed s.finish behind
  | cons t more => exact Cursor.getElem?_middle passed t _

theorem index (here : s.At tokens i) :
    i + s.rest.length = tokens.findIdx (·.kind == .eof) := by
  obtain ⟨passed, behind, rfl, rfl, unended⟩ := here.split
  have none_before : (passed ++ s.rest).findIdx (·.kind == .eof) = (passed ++ s.rest).length :=
    List.findIdx_eq_length.2 fun t member => beq_eq_false_iff_ne.2 (unended t member)
  have found : (s.finish :: behind).findIdx (·.kind == .eof) = 0 := by
    rw [List.findIdx_cons, here.ended]
    rfl
  rw [← List.append_assoc, List.findIdx_append, none_before, if_neg (Nat.lt_irrefl _), found,
    Nat.zero_add, List.length_append]

theorem still (here : s.At tokens i) (rest : s'.rest = s.rest) (finish : s'.finish = s.finish) :
    s'.At tokens i where
  split := by
    rw [rest, finish]
    exact here.split
  ended := finish ▸ here.ended
  settled := by
    unfold Settled
    rw [rest]
    exact here.settled

theorem skip (passed ts behind : List Token) (ended : s.finish.kind = .eof)
    (shape : tokens = passed ++ (ts ++ s.finish :: behind))
    (unended : ∀ t ∈ passed ++ ts, t.kind ≠ .eof) (rest : s.rest = ts.dropWhile isLexicalError) :
    ∃ j, Cursor.skip? tokens passed.length = some j ∧ s.At tokens j := by
  have errors : ∀ t ∈ ts.takeWhile isLexicalError, t.kind = .error := fun t member =>
    beq_iff_eq.1 (List.mem_takeWhile_imp (p := isLexicalError) member)
  have whole : tokens = passed ++ (ts.takeWhile isLexicalError ++ (s.rest ++ s.finish :: behind)) := by
    rw [shape, rest, ← List.append_assoc (ts.takeWhile _), List.takeWhile_append_dropWhile]
  have settled : Settled s := fun t head => usable_of_dropWhile (rest ▸ head)
  refine ⟨passed.length + (ts.takeWhile isLexicalError).length, ?_, ?_, ended, settled⟩
  · rw [whole]
    -- the errors end at the next usable token, or at the last one
    cases upcoming : s.rest with
    | nil => exact Cursor.skip?_errors errors passed (by rw [ended]; decide) behind
    | cons t more =>
      exact Cursor.skip?_errors errors passed (settled t (by rw [upcoming]; rfl)) _
  · refine ⟨passed ++ ts.takeWhile isLexicalError, behind, ?_, List.length_append, ?_⟩
    · rw [whole, List.append_assoc]
    · rwa [rest, List.append_assoc, List.takeWhile_append_dropWhile]

theorem advanced (here : s.At tokens i) :
    ∃ j, Cursor.advance? tokens i = some j ∧ s.advanced.At tokens j := by
  have found := here.next
  unfold Cursor.advance?
  obtain ⟨passed, behind, shape, rfl, unended⟩ := here.split
  rw [found]
  cases upcoming : s.rest with
  | nil =>
    have last : s.next.kind = .eof := by
      rw [State.next, upcoming]
      exact here.ended
    have still : s.advanced.rest = s.rest := by
      rw [State.advanced, State.settled, upcoming]
      rfl
    exact ⟨passed.length, if_pos last, here.still still rfl⟩
  | cons t more =>
    have first : s.next = t := by rw [State.next, upcoming, List.headD_cons]
    rw [upcoming] at shape unended
    have going : t.kind ≠ .eof :=
      unended t (List.mem_append_right _ List.mem_cons_self)
    have rest : s.advanced.rest = more.dropWhile isLexicalError := by
      rw [State.advanced, State.settled, upcoming]
      rfl
    have later := skip (s := s.advanced) (passed ++ [t]) more behind here.ended
      (shape.trans (List.append_cons passed t _)) (by rwa [← List.append_cons]) rest
    rw [List.length_append, List.length_singleton] at later
    rw [first]
    dsimp only
    rwa [if_neg going]

end At

theorem mem_of_isComplete {tokens : List Token} (complete : isComplete tokens = true) :
    ∃ t ∈ tokens, (t.kind == .eof) = true := by
  unfold isComplete at complete
  cases found : tokens.getLast? with
  | none =>
    rw [found] at complete
    cases complete
  | some t =>
    rw [found] at complete
    exact ⟨t, List.mem_of_getLast? found, complete⟩

theorem split_of_isComplete {tokens : List Token} (complete : isComplete tokens = true) :
    ∃ behind, tokens =
      tokens.takeWhile (·.kind != .eof) ++ (start tokens).finish :: behind := by
  obtain ⟨finish, found⟩ := Option.isSome_iff_exists.1
    (List.find?_isSome.2 (mem_of_isComplete complete))
  obtain ⟨ended, before, behind, shape, all⟩ := List.find?_eq_some_iff_append.1 found
  have unended : ∀ t ∈ before, (t.kind != .eof) = true := all
  have read : tokens.takeWhile (·.kind != .eof) = before := by
    rw [shape, List.takeWhile_append_of_pos unended,
      List.takeWhile_cons_of_neg (by simpa using ended), List.append_nil]
  have last : (start tokens).finish = finish := by
    show (tokens.find? (·.kind == .eof)).getD _ = finish
    rw [found]
    rfl
  exact ⟨behind, by rw [read, last, ← shape]⟩

theorem at_start {tokens : List Token} (complete : isComplete tokens = true) :
    ∃ i, Cursor.skip? tokens 0 = some i ∧ (start tokens).At tokens i := by
  obtain ⟨behind, shape⟩ := split_of_isComplete complete
  exact At.skip [] (tokens.takeWhile (·.kind != .eof)) behind (finish_start tokens) shape
    (fun _ member => ne_eof_of_takeWhile member) rfl

end State

end Scriptlet.Parse
