import Scriptlet.Proofs.Parse.Cursor
import Scriptlet.Proofs.Session.Anchored
import Scriptlet.Proofs.Token.Position

/-! The order of the reports. A fault is reported at the next token, which is further down
than all that has been reported before, and so is a lexical error. Two faults are reported
at a token that has been passed: an assignment target that is none, when the value behind
its sign has been read, and an operator without a left operand, when the lexical errors
behind it have been passed. Apart from these two the lines of the reports never decrease,
and these two come right behind the reports of their own value or errors. -/
namespace Scriptlet

namespace Diagnostic

/-- A report that may be made behind these, although its token comes before theirs. -/
def Late (d : Diagnostic) (between : List Diagnostic) : Prop :=
  d.fault = .invalidTarget ∨
    d.fault = .missingLeftOperand ∧ ∀ e ∈ between, ∃ message, e.fault = .lexical message

/-- The reports on what stands between two lines. They are in the order of the text, but for
those that stand behind what is reported right behind their token. -/
inductive Retell : Int → List Diagnostic → Int → Prop
  | silent {first last : Int} : first ≤ last → Retell first [] last
  | single (d : Diagnostic) : Retell d.line [d] d.line
  | append {first middle last : Int} {ds es : List Diagnostic} :
    Retell first ds middle → Retell middle es last → Retell first (ds ++ es) last
  | behind {d : Diagnostic} {ds : List Diagnostic} {last : Int} :
    d.Late ds → Retell d.line ds last → Retell d.line (ds ++ [d]) last

/-- The second report may come after the first one: it is not further up in the text, or
its fault is one that is reported late. -/
def Precedes (earlier later : Diagnostic) : Prop :=
  earlier.line ≤ later.line ∨ later.fault = .invalidTarget ∨
    later.fault = .missingLeftOperand ∧ ∃ message, earlier.fault = .lexical message

namespace Retell
variable {first last : Int} {ds : List Diagnostic}

theorem forward (retell : Retell first ds last) : first ≤ last := by
  induction retell with
  | silent forward => exact forward
  | single d => exact Int.le_refl _
  | append _ _ sooner later => exact Int.le_trans sooner later
  | behind _ _ ih => exact ih

theorem within (retell : Retell first ds last) : ∀ d ∈ ds, first ≤ d.line ∧ d.line ≤ last := by
  induction retell with
  | silent _ => exact List.forall_mem_nil _
  | single d => exact List.forall_mem_singleton.2 ⟨Int.le_refl _, Int.le_refl _⟩
  | append sooner later before behind =>
    exact List.forall_mem_append.2
      ⟨fun d member => ⟨(before d member).1, Int.le_trans (before d member).2 later.forward⟩,
        fun d member => ⟨Int.le_trans sooner.forward (behind d member).1, (behind d member).2⟩⟩
  | behind _ value ih =>
    exact List.forall_mem_append.2 ⟨ih, List.forall_mem_singleton.2 ⟨Int.le_refl _, value.forward⟩⟩

theorem pairwise (retell : Retell first ds last) : ds.Pairwise Precedes := by
  induction retell with
  | silent _ => exact .nil
  | single d => exact List.pairwise_singleton _ _
  | append sooner later before behind =>
    exact List.pairwise_append.2 ⟨before, behind, fun d old e fresh =>
      .inl (Int.le_trans (sooner.within d old).2 (later.within e fresh).1)⟩
  | behind late _ ih =>
    refine List.pairwise_append.2 ⟨ih, List.pairwise_singleton _ _, fun e old d last => ?_⟩
    rw [List.mem_singleton.1 last]
    exact late.elim (fun target => .inr (.inl target))
      fun operator => .inr (.inr ⟨operator.1, operator.2 e old⟩)

theorem of_sorted {tokens : List Token} {report : Token → Diagnostic}
    (lines : ∀ t, (report t).line = t.line) (sorted : tokens.Pairwise fun t u => t.line ≤ u.line)
    (forward : first ≤ last) (above : ∀ t ∈ tokens, first ≤ t.line)
    (below : ∀ t ∈ tokens, t.line ≤ last) : Retell first (tokens.map report) last := by
  induction tokens generalizing first with
  | nil => exact .silent forward
  | cons t more ih =>
    obtain ⟨here, later⟩ := List.pairwise_cons.1 sorted
    obtain ⟨reached, ends⟩ := List.forall_mem_cons.1 below
    have begins : Retell first [] (report t).line :=
      .silent (lines t ▸ (List.forall_mem_cons.1 above).1)
    exact begins.append ((Retell.single _).append
      (ih later (lines t ▸ reached) (fun u member => lines t ▸ here u member) ends))

end Retell

end Diagnostic

namespace Parse
open State Grammar Diagnostic

/-- The tokens to come, the one at which the parse ends included. -/
def State.pending (s : State) : List Token := s.rest ++ [s.finish]

def State.Sorted (s : State) : Prop := s.pending.Pairwise fun t u => t.line ≤ u.line

private theorem next_mem_pending (s : State) : s.next ∈ s.pending := by
  unfold State.next State.pending
  cases s.rest with
  | nil => exact List.mem_singleton_self _
  | cons t more => exact List.mem_cons_self

private theorem sublist_pending {s s' : State} (follows : Follows s s') :
    s'.pending.Sublist s.pending := by
  unfold State.pending
  rw [follows.finish]
  exact follows.rest.sublist.append_right _

namespace State.Sorted
variable {s s' : State}

theorem follows (sorted : s.Sorted) (follows : Follows s s') : s'.Sorted :=
  sorted.sublist (sublist_pending follows)

private theorem next_le (sorted : s.Sorted) : ∀ t ∈ s.pending, s.next.line ≤ t.line := by
  have lines : (s.rest ++ [s.finish]).Pairwise fun t u => t.line ≤ u.line := sorted
  show ∀ t ∈ s.rest ++ [s.finish], (s.rest.headD s.finish).line ≤ t.line
  cases upcoming : s.rest with
  | nil => exact List.forall_mem_singleton.2 (Int.le_refl _)
  | cons u more =>
    rw [upcoming, List.cons_append] at lines
    exact List.forall_mem_cons.2 ⟨Int.le_refl _, (List.pairwise_cons.1 lines).1⟩

private theorem next_le_next (sorted : s.Sorted) (follows : Follows s s') : s.next.line ≤ s'.next.line :=
  sorted.next_le _ ((sublist_pending follows).subset (next_mem_pending s'))

private theorem retell_settled (sorted : s.Sorted) :
    Retell s.next.line ((s.rest.takeWhile isLexicalError).map .lexical) s.settled.next.line := by
  have parts : s.rest.takeWhile isLexicalError ++ s.settled.pending = s.pending := by
    show _ ++ (s.rest.dropWhile isLexicalError ++ [s.finish]) = _
    rw [← List.append_assoc, List.takeWhile_append_dropWhile]
    rfl
  have all := sorted.next_le
  unfold State.Sorted at sorted
  rw [← parts] at sorted all
  obtain ⟨errors, _, above⟩ := List.pairwise_append.1 sorted
  have next := next_mem_pending s.settled
  exact .of_sorted (fun _ => rfl) errors (all _ (List.mem_append_right _ next))
    (fun t member => all t (List.mem_append_left _ member)) fun t member => above t member _ next

end State.Sorted

/-- Where the tokens to come are sorted, what has been reported since then is what stands
between the next tokens of then and now. -/
def StaysInOrder (s s' : State) : Prop :=
  s.Sorted → Follows s s' ∧
    ∃ ds, s'.reports = ds.reverse ++ s.reports ∧ Retell s.next.line ds s'.next.line

theorem StaysInOrder.trans {s middle s' : State} (first : StaysInOrder s middle)
    (second : StaysInOrder middle s') : StaysInOrder s s' := by
  intro sorted
  obtain ⟨follows, ds, sooner, before⟩ := first sorted
  obtain ⟨onward, es, later, behind⟩ := second (sorted.follows follows)
  refine ⟨law_follows.trans follows onward, ds ++ es, ?_, before.append behind⟩
  rw [later, sooner, List.reverse_append, List.append_assoc]

private theorem State.Sorted.retell_from {s s' : State} {ds : List Diagnostic} {last : Int}
    (sorted : s.Sorted) (follows : Follows s s') (retell : Retell s'.next.line ds last) :
    Retell s.next.line ds last :=
  (Retell.silent (sorted.next_le_next follows)).append retell

private theorem follows_passing {s : State} {rest : List Token} {reports : List Diagnostic}
    (fewer : rest <:+ s.rest) : Follows s { s with rest, reports } := ⟨fewer, rfl, rfl, rfl⟩

private theorem stays_advanced (s : State) : StaysInOrder s s.advanced := by
  intro sorted
  have tail : Follows s { s with rest := s.rest.tail } := follows_passing (List.tail_suffix _)
  exact ⟨follows_advanced s, _, rfl, sorted.retell_from tail (sorted.follows tail).retell_settled⟩

private theorem stays_overrun {s : State} {t e : Token} {more : List Token}
    (upcoming : s.rest = t :: e :: more) (sort : e.kind = .error) :
    StaysInOrder s (s.overrun e more) := by
  intro sorted
  have error : Follows s { s with rest := e :: more } :=
    follows_passing (upcoming ▸ List.suffix_cons t _)
  have behind : Follows { s with rest := e :: more }
      { s with rest := more, reports := .atToken e .tooDeep :: s.reports } :=
    follows_passing (List.suffix_cons e more)
  have here := sorted.follows error
  have last : Retell e.line [.atToken e .tooDeep] e.line := .single (.atToken e .tooDeep)
  have told := sorted.retell_from error
    (last.append (here.retell_from behind (here.follows behind).retell_settled))
  refine ⟨follows_overrun upcoming sort, _, ?_, told⟩
  rw [List.reverse_append, List.append_assoc]
  rfl

private theorem course_inOrder : Course StaysInOrder where
  refl s _ := ⟨law_follows.refl s, [], rfl, .silent (Int.le_refl _)⟩
  trans := StaysInOrder.trans
  advanced := stays_advanced
  overrun := stays_overrun
  reportNext s fault _ :=
    ⟨law_follows.reportNext s fault, [.atToken s.next fault], rfl, .single (.atToken s.next fault)⟩
  deeper inside sorted :=
    have ⟨follows, told⟩ := inside sorted
    ⟨law_follows.deeper follows, told⟩
  inner inside sorted :=
    have ⟨follows, told⟩ := inside sorted
    ⟨law_follows.inner follows, told⟩

theorem StaysInOrder.report {s s' : State} {fault : Fault} (until_here : StaysInOrder s s')
    (late : ∀ ds, s'.reports = ds.reverse ++ s.reports → Late (.atToken s.next fault) ds) :
    StaysInOrder s (s'.report s.next fault) := by
  intro sorted
  obtain ⟨follows, ds, told, retell⟩ := until_here sorted
  have behind : Retell s.next.line (ds ++ [.atToken s.next fault]) s'.next.line :=
    .behind (late ds told) retell
  refine ⟨law_follows.trans follows (follows_passing (List.suffix_refl _)), _, ?_, behind⟩
  rw [List.reverse_append, List.append_assoc, ← told]
  rfl

section Taken
variable {α β : Type} {test : Token → Option α} {f : Option α → Parser β}

private theorem takeAt?_cases (levels : Nat) (test : Token → Option α) (s : State) :
    takeAt? levels test s = .error .overrun s ∨ takeAt? levels test s = .ok none s ∨
      ∃ a, test s.next = some a ∧ takeAt? levels test s = .ok (some a) s.advanced := by
  rw [takeAt?_eq]
  split
  · exact .inl rfl
  · refine .inr ?_
    unfold take?
    split
    · exact .inl rfl
    · rename_i t more upcoming
      have first : s.next = t := by rw [State.next, upcoming, List.headD_cons]
      split
      · exact .inl rfl
      · rename_i a passes
        exact .inr ⟨a, by rwa [first], rfl⟩

private theorem keeps_takenAt {levels : Nat} (refused : Keeps StaysInOrder (f none))
    (taken : ∀ s a, test s.next = some a → StaysInOrder s (after (f (some a) s.advanced))) :
    Keeps StaysInOrder (takeAt? levels test >>= f) := by
  intro s
  obtain ran | ran | ⟨a, passes, ran⟩ := takeAt?_cases levels test s
  · rw [bind_of_error ran]
    exact course_inOrder.refl s
  · rw [bind_of_ok ran]
    exact refused s
  · rw [bind_of_ok ran]
    exact taken s a passes

private theorem keeps_taken (refused : Keeps StaysInOrder (f none))
    (taken : ∀ s a, test s.next = some a → StaysInOrder s (after (f (some a) s.advanced))) :
    Keeps StaysInOrder (take? test >>= f) := by
  have same : take? test = takeAt? 1 test := funext fun s => by simp [takeAt?_eq]
  rw [same]
  exact keeps_takenAt refused taken

/-- The sign of an assignment is reported when the value has been read. -/
private theorem stays_assigned {value : Parser Expr} (ordered : Keeps StaysInOrder value)
    (target : Expr) (s : State) :
    StaysInOrder s (after ((value >>= fun value =>
      match target with
      | .reference name => pure (.assign name value)
      | _ => report s.next .invalidTarget >>= fun _ => pure target) s.advanced)) := by
  have read := (stays_advanced s).trans (ordered s.advanced)
  cases ran : value s.advanced with
  | error abort middle =>
    rw [bind_of_error ran]
    rwa [ran] at read
  | ok value middle =>
    rw [bind_of_ok ran]
    rw [ran] at read
    split
    · exact read
    · exact read.report fun ds _ => .inl rfl

end Taken

/-- An operator is reported at once, but the lexical errors behind it have been. -/
private theorem stays_operator (s : State) :
    StaysInOrder s (s.advanced.report s.next .missingLeftOperand) := by
  refine (stays_advanced s).report fun ds told => .inr ⟨rfl, fun e member => ?_⟩
  have errors : _ = ds.reverse := List.append_cancel_right (show _ ++ s.reports = _ from told)
  rw [← List.mem_reverse, ← errors, List.mem_reverse] at member
  obtain ⟨t, _, rfl⟩ := List.mem_map.1 member
  exact ⟨t.literal, rfl⟩

private theorem inOrder_rule (limit depth : Nat) (r : Rule) : Keeps StaysInOrder (rule limit depth r) := by
  have built := course_inOrder.built
  refine built.rule (fun depth ih => ?_) (fun depth ih => ?_) depth r
  · refine built.bind (ih _) fun target => keeps_taken (built.pure target) fun s equals passes => ?_
    obtain ⟨_, rfl⟩ := ifKind_eq_some.1 passes
    exact stays_assigned (ih _) target s
  · refine keeps_takenAt (built.fail _) fun s opening opens => ?_
    cases opening with
    | constant value => exact stays_advanced s
    | name token => exact stays_advanced s
    | group =>
      exact (stays_advanced s).trans (built.bind (ih _) (fun inner =>
        built.bind (built.expect _ _) fun _ => built.pure _) s.advanced)
    | operator token operand =>
      obtain rfl : s.next = token := by
        unfold opening? at opens
        split at opens <;> first | cases opens | skip
        obtain ⟨rule, _, same⟩ := Option.map_eq_some_iff.1 opens
        cases same
        rfl
      exact (stays_operator s).trans (ih operand (s.advanced.report s.next .missingLeftOperand))

private theorem inOrder_statement (limits : Limits) (depth : Nat) :
    Keeps StaysInOrder (statement limits depth) :=
  course_inOrder.built.statement (inOrder_rule limits.nesting) depth

private theorem retell_diagnostics (limits : Limits) {tokens : List Token}
    (complete : isComplete tokens = true) (sorted : tokens.Pairwise fun t u => t.line ≤ u.line) :
    ∃ first last, Retell first (program limits tokens).diagnostics last := by
  obtain ⟨behind, shape⟩ := split_of_isComplete complete
  have met : (tokens.takeWhile (·.kind != .eof) ++ [(start tokens).finish]) <+: tokens :=
    ⟨behind, by rw [List.append_assoc, List.singleton_append, ← shape]⟩
  have unread : (⟨tokens.takeWhile (·.kind != .eof), (start tokens).finish, [], 0, 0⟩ :
      State).Sorted := sorted.sublist met.sublist
  have ran := course_inOrder.declarations
    (course_inOrder.recovered (inOrder_statement limits limits.depth)) atEnd (start tokens).rest
    (start tokens)
  obtain ⟨_, ds, told, retell⟩ := ran (unread.follows (follows_passing (List.dropWhile_suffix _)))
  have whole := unread.retell_settled.append retell
  have all : (program limits tokens).diagnostics = (start tokens).reports.reverse ++ ds := by
    refine (congrArg List.reverse told).trans ?_
    rw [List.reverse_append, List.reverse_reverse]
  have errors : (start tokens).reports.reverse = ((tokens.takeWhile (·.kind != .eof)).takeWhile
      isLexicalError).map .lexical := by
    show (_ ++ []).reverse = _
    rw [List.append_nil, List.reverse_reverse]
  rw [all, errors]
  exact ⟨_, _, whole⟩

/-- The reports on a text are in the order of its lines, but for targets of assignments that
are none, which come behind what is reported in the value, and for operators without a left
operand, which come behind the lexical errors right after them. -/
theorem program_reports_inOrder (limits : Limits) (source : String) :
    (∃ first last, Retell first (program limits (Token.scan source)).diagnostics last) ∧
      (program limits (Token.scan source)).diagnostics.Pairwise Precedes := by
  obtain ⟨first, last, retell⟩ := retell_diagnostics limits (Session.isComplete_scan source)
    (Lexical.pairwise_ofPieces 1 (Piece.cut source.toList))
  exact ⟨⟨first, last, retell⟩, retell.pairwise⟩

/-- A target that is none, reported behind an operator on the next line. -/
theorem late_target_above :
    ¬(program .standard (Token.scan "1 =\n+ 2;")).diagnostics.Pairwise
      fun d e => d.line ≤ e.line := by decide +kernel

/-- An operator without a left operand, reported behind a lexical error on the next line. -/
example : ¬(program .standard (Token.scan "+\n@ 2;")).diagnostics.Pairwise
    fun d e => d.line ≤ e.line := by decide +kernel

end Parse

end Scriptlet
