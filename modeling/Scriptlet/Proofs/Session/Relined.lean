import Scriptlet.Proofs.Parse.Relined
import Scriptlet.Proofs.Session.Anchored

/-! Lines matter to reports only. Tokens on other lines make the same trees and the same
faults, and programs of them do the same; the lines show where an error is reported, and
in the log's count of them. So two texts whose tokens differ in their lines do the same in
every session, and reports of the one stand for those of the other at the corresponding
lines. -/
namespace Scriptlet
open Token

/-- The same token, on corresponding lines. -/
structure Token.Alike (L : Int → Int → Prop) (t t' : Token) : Prop where
  kind : t'.kind = t.kind
  lexeme : t'.lexeme = t.lexeme
  literal : t'.literal = t.literal
  line : L t.line t'.line

instance {L : Int → Int → Prop} [∀ line line', Decidable (L line line')] (t t' : Token) :
    Decidable (t.Alike L t') :=
  decidable_of_iff
    (t'.kind = t.kind ∧ t'.lexeme = t.lexeme ∧ t'.literal = t.literal ∧ L t.line t'.line)
    ⟨fun ⟨kind, lexeme, literal, line⟩ => ⟨kind, lexeme, literal, line⟩,
      fun ⟨kind, lexeme, literal, line⟩ => ⟨kind, lexeme, literal, line⟩⟩

structure Diagnostic.Alike (L : Int → Int → Prop) (d d' : Diagnostic) : Prop where
  place : d'.place = d.place
  fault : d'.fault = d.fault
  line : L d.line d'.line

structure RuntimeError.Alike (L : Int → Int → Prop) (e e' : RuntimeError) : Prop where
  category : e'.category = e.category
  message : e'.message = e.message
  token : List.Forall₂ (Token.Alike L) e.token?.toList e'.token?.toList

namespace Session

inductive Verdict.Alike (L : Int → Int → Prop) : Verdict → Verdict → Prop
  | completed : Alike L .completed .completed
  | rejected {ds ds'} (faults : List.Forall₂ (Diagnostic.Alike L) ds ds') :
      Alike L (.rejected ds) (.rejected ds')
  | halted {e e'} (error : RuntimeError.Alike L e e') : Alike L (.halted e) (.halted e')
  | stuck {t t'} (operator : Token.Alike L t t') : Alike L (.stuck t) (.stuck t')

/-- The same event, or reports on corresponding lines, or counts of alike tokens. -/
inductive Event.Alike (L : Int → Int → Prop) : Event → Event → Prop
  | out (text : String) : Alike L (.out text) (.out text)
  | log (channel : Channel) (message : String) : Alike L (.log channel message) (.log channel message)
  | fault {d d' : Diagnostic} (alike : d.Alike L d') :
      Alike L (.err (d.report ++ "\n")) (.err (d'.report ++ "\n"))
  | error {e e' : RuntimeError} (alike : e.Alike L e') :
      Alike L (.err (e.report ++ "\n")) (.err (e'.report ++ "\n"))
  | scanned {ts ts' : List Token} (alike : List.Forall₂ (Token.Alike L) ts ts') :
      Alike L (scanned ts) (scanned ts')

/-- Turns that leave the same session and have done the same, reported on corresponding
lines. -/
structure Turn.Alike (L : Int → Int → Prop) (turn turn' : Turn) : Prop where
  session : turn'.session = turn.session
  verdict : turn.verdict.Alike L turn'.verdict
  events : List.Forall₂ (Event.Alike L) turn.events turn'.events

end Session

theorem interpret_relined (f : Int → Int) (depth : Depth) (program : List Stmt) (globals : Frame) :
    interpret depth (program.map (Stmt.mapTokens (relined f))) globals =
      (interpret depth program globals).mapTokens (relined f) := by
  have behind := ofResult_behind (Session.unnoticed_relined f) depth program globals ""
  rw [← interpret_eq_ofResult] at behind
  rw [behind, Outcome.behind, String.empty_append]

private theorem RuntimeError.category_mapTokens (g : Token → Token) (e : RuntimeError) :
    (e.mapTokens g).category = e.category := by
  cases e <;> rfl

private theorem Session.alike_printed (L : Int → Int → Prop) (output : String) :
    List.Forall₂ (Event.Alike L) (printed output) (printed output) := by
  unfold printed
  split
  · exact .nil
  · exact .cons (.out output) .nil

theorem Session.Turn.Alike.logged {L : Int → Int → Prop} {turn turn' : Turn} {event event' : Event}
    (alike : turn.Alike L turn') (same : event.Alike L event') :
    Turn.Alike L { turn with events := event :: turn.events }
      { turn' with events := event' :: turn'.events } :=
  ⟨alike.session, alike.verdict, .cons same alike.events⟩

private theorem Session.parsed_relined (f : Int → Int) (g : Stmt → Stmt)
    (program : Parse.Parsed (List Stmt)) :
    parsed (program.relined f (List.map g)) = parsed program := by
  unfold parsed Parse.Parsed.relined
  rw [List.length_map, List.length_map]

section Functions
variable {L : Int → Int → Prop} {f f' : Int → Int} (lines : ∀ line, L (f line) (f' line))
include lines

private theorem Token.alike_relined (t : Token) : (t.relined f).Alike L (t.relined f') :=
  ⟨rfl, rfl, rfl, lines t.line⟩

private theorem Token.alike_map (tokens : List Token) :
    List.Forall₂ (Token.Alike L) (tokens.map (relined f)) (tokens.map (relined f')) := by
  rw [List.forall₂_map_left_iff, List.forall₂_map_right_iff]
  exact List.forall₂_same.2 fun t _ => alike_relined lines t

private theorem Diagnostic.alike_relined (d : Diagnostic) : (d.relined f).Alike L (d.relined f') :=
  ⟨rfl, rfl, lines d.line⟩

private theorem RuntimeError.alike_relined (e : RuntimeError) :
    (e.mapTokens (relined f)).Alike L (e.mapTokens (relined f')) := by
  cases e with
  | stackOverflow => exact ⟨rfl, rfl, .nil⟩
  | undefinedVariable t | operandNotNumber t | operandsNotNumbers t | operandsNotAddable t
  | divisionByZero t => exact ⟨rfl, rfl, .cons (Token.alike_relined lines t) .nil⟩

namespace Session
open Parse

private theorem alike_halted (e : RuntimeError) :
    List.Forall₂ (Event.Alike L) (halted (e.mapTokens (relined f)))
      (halted (e.mapTokens (relined f'))) := by
  unfold halted
  rw [RuntimeError.category_mapTokens, RuntimeError.category_mapTokens]
  exact .cons (.log _ _) (.cons (.error (e.alike_relined lines)) .nil)

private theorem alike_settled (outcome : Outcome) (session : Session) :
    (settled (outcome.mapTokens (relined f)) session).Alike L
      (settled (outcome.mapTokens (relined f')) session) := by
  obtain ⟨globals, output, failure⟩ := outcome
  cases failure with
  | none => exact ⟨rfl, .completed, alike_printed L output⟩
  | some failure =>
    cases failure with
    | raised error =>
      exact ⟨rfl, .halted (error.alike_relined lines),
        List.rel_append (alike_printed L output) (alike_halted lines error)⟩
    | unknownOperator operator =>
      exact ⟨rfl, .stuck (operator.alike_relined lines), alike_printed L output⟩

private theorem alike_execute (settings : Settings) (program : List Stmt) (session : Session) :
    (execute settings (program.map (Stmt.mapTokens (relined f))) session).Alike L
      (execute settings (program.map (Stmt.mapTokens (relined f'))) session) := by
  rw [execute_eq, execute_eq, interpret_relined, interpret_relined]
  exact alike_settled lines _ session

private theorem alike_diagnostics (ds : List Diagnostic) :
    List.Forall₂ (Diagnostic.Alike L) (ds.map (Diagnostic.relined f))
      (ds.map (Diagnostic.relined f')) := by
  rw [List.forall₂_map_left_iff, List.forall₂_map_right_iff]
  exact List.forall₂_same.2 fun d _ => d.alike_relined lines

variable (settings : Settings) {tokens : List Token} (complete : isComplete tokens = true)
  (session : Session)
include complete

private theorem alike_runProgram :
    (runProgram settings (tokens.map (relined f)) session).Alike L
      (runProgram settings (tokens.map (relined f')) session) := by
  unfold runProgram
  rw [program_lines f settings.limits complete, program_lines f' settings.limits complete]
  dsimp only
  rw [Parsed.isValid_relined, Parsed.isValid_relined, parsed_relined, parsed_relined]
  split
  · exact (alike_execute lines settings _ session).logged (.log _ _)
  · have faults := alike_diagnostics lines (program settings.limits tokens).diagnostics
    refine ⟨rfl, .rejected faults, .cons (.log _ _) ?_⟩
    rw [List.forall₂_map_left_iff, List.forall₂_map_right_iff]
    exact faults.imp fun d d' alike => .fault alike

private theorem alike_runInteractive :
    (runInteractive settings (tokens.map (relined f)) session).Alike L
      (runInteractive settings (tokens.map (relined f')) session) := by
  have program := alike_runProgram lines settings complete session
  unfold runInteractive
  rw [bareExpression_lines f settings.limits complete,
    bareExpression_lines f' settings.limits complete]
  unfold Parsed.relined
  dsimp only
  cases (bareExpression settings.limits tokens).tree with
  | none => exact program
  | some value =>
    exact (alike_execute lines settings [.print value] session).logged (.log _ _)

end Session

end Functions

/-- Two lists of alike tokens are one list on two assignments of lines. -/
private theorem Token.exists_common {L : Int → Int → Prop} {first first' : Int} (some_line : L first first')
    {ts ts' : List Token} (alike : List.Forall₂ (Token.Alike L) ts ts') :
    ∃ (common : List Token) (f f' : Int → Int), common.map (relined f) = ts ∧
      common.map (relined f') = ts' ∧ (∀ line, L (f line) (f' line)) ∧
      ∀ t ∈ common, 0 ≤ t.line := by
  induction alike with
  | nil => exact ⟨[], fun _ => first, fun _ => first', rfl, rfl, fun _ => some_line,
      fun t member => by cases member⟩
  | @cons t t' ts ts' same _ ih =>
    obtain ⟨common, f, f', left, right, lines, counted⟩ := ih
    -- the token of line 0 comes first, and the lines of the others are counted up
    have later : ∀ (g : Int → Int) (line : Int), (common.map (relined (· + 1))).map
        (relined fun i => if i = 0 then line else g (i - 1)) = common.map (relined g) := by
      intro g line
      rw [List.map_map]
      refine List.map_congr_left fun u member => ?_
      have counted := counted u member
      show ({ u with line := if u.line + 1 = 0 then line else g (u.line + 1 - 1) } : Token) =
        { u with line := g u.line }
      rw [if_neg (by omega), Int.add_sub_cancel]
    refine ⟨{ t with line := 0 } :: common.map (relined (· + 1)),
      fun i => if i = 0 then t.line else f (i - 1), fun i => if i = 0 then t'.line else f' (i - 1),
      ?_, ?_, ?_, ?_⟩
    · rw [List.map_cons, later, left]
      rfl
    · rw [List.map_cons, later, right]
      obtain ⟨kind, lexeme, literal, _⟩ := same
      cases t'
      simp_all [relined]
    · intro i
      dsimp only
      split
      · exact same.line
      · exact lines _
    · intro u member
      rcases List.mem_cons.1 member with rfl | behind
      · exact Int.le_refl 0
      · obtain ⟨v, among, rfl⟩ := List.mem_map.1 behind
        have counted := counted v among
        show 0 ≤ v.line + 1
        omega

namespace Session

theorem alike_run {L : Int → Int → Prop} (settings : Settings) {source source' : String}
    (alike : List.Forall₂ (Token.Alike L) (scan source) (scan source')) (interactive : Bool)
    (session : Session) :
    (run settings interactive source session).Alike L
      (run settings interactive source' session) := by
  have some_line : ∃ first first', L first first' := by
    have complete := isComplete_scan source
    cases shape : scan source with
    | nil =>
      rw [shape] at complete
      cases complete
    | cons t more =>
      rw [shape] at alike
      obtain ⟨t', _, same, _, _⟩ := List.forall₂_cons_left_iff.1 alike
      exact ⟨_, _, same.line⟩
  obtain ⟨first, first', some_line⟩ := some_line
  obtain ⟨common, f, f', left, right, lines, _⟩ := Token.exists_common some_line alike
  have complete : Parse.isComplete common = true := by
    rw [← Parse.isComplete_relined f, left]
    exact isComplete_scan source
  unfold run
  dsimp only
  rw [← left, ← right]
  refine Turn.Alike.logged ?_ (.scanned (alike_map lines common))
  split
  · exact alike_runInteractive lines settings complete session
  · exact alike_runProgram lines settings complete session

/-- Parsing keeps to any change of the lines and running does; texts whose tokens are alike
but for the lines do the same in a session, reported at the lines of the same tokens; and a
text that stands lower by some lines has all its reports lower by as many. -/
theorem lines_only_reported (settings : Settings) :
    (∀ (f : Int → Int) (tokens : List Token),
      Parse.isComplete (tokens.map (relined f)) = Parse.isComplete tokens ∧
        (Parse.isComplete tokens = true →
          Parse.program settings.limits (tokens.map (relined f)) =
              (Parse.program settings.limits tokens).relined f
                (List.map (Stmt.mapTokens (relined f))) ∧
            Parse.bareExpression settings.limits (tokens.map (relined f)) =
              (Parse.bareExpression settings.limits tokens).relined f
                (Option.map (Expr.mapTokens (relined f))))) ∧
    (∀ (f : Int → Int) (program : List Stmt) (globals : Frame),
      interpret settings.depth (program.map (Stmt.mapTokens (relined f))) globals =
        (interpret settings.depth program globals).mapTokens (relined f)) ∧
    (∀ (L : Int → Int → Prop) (source source' : String),
      List.Forall₂ (Token.Alike L) (scan source) (scan source') →
        ∀ (interactive : Bool) (session : Session),
          (run settings interactive source session).Alike L
            (run settings interactive source' session)) ∧
    ∀ (k : Nat) (source : String),
      scan (lowered k source) = (scan source).map (relined (· + k)) ∧
        ∀ (interactive : Bool) (session : Session),
          (run settings interactive source session).Alike (fun line lower => lower = line + k)
            (run settings interactive (lowered k source) session) := by
  refine ⟨fun f tokens => ⟨Parse.isComplete_relined f tokens, fun complete =>
      ⟨Parse.program_lines f settings.limits complete,
        Parse.bareExpression_lines f settings.limits complete⟩⟩,
    fun f program globals => interpret_relined f settings.depth program globals,
    fun L source source' alike => alike_run settings alike, fun k source => ?_⟩
  have lower := scan_lowered k source
  have alike : List.Forall₂ (Token.Alike fun line lower => lower = line + k) (scan source)
      ((scan source).map (relined (· + k))) := by
    rw [List.forall₂_map_right_iff]
    exact List.forall₂_same.2 fun t _ => ⟨rfl, rfl, rfl, rfl⟩
  rw [← lower] at alike
  exact ⟨lower, alike_run settings alike⟩

/-- A division by zero on one line and on three, and one below two line breaks. -/
theorem lines_only_reported_division :
    List.Forall₂ (Token.Alike fun line line' => line = 1 ∧ line' ∈ [1, 2, 3]) (scan "1 / 0")
        (scan "1\n/\n0") ∧
      (run .standard true "1 / 0" .fresh).Alike (fun line line' => line = 1 ∧ line' ∈ [1, 2, 3])
        (run .standard true "1\n/\n0" .fresh) ∧
      (run .standard true "1 / 0" .fresh).Alike (fun line lower => lower = line + (2 : Nat))
        (run .standard true (lowered 2 "1 / 0") .fresh) := by
  have alike : List.Forall₂ (Token.Alike fun line line' => line = 1 ∧ line' ∈ [1, 2, 3])
      (scan "1 / 0") (scan "1\n/\n0") := by decide +kernel
  obtain ⟨_, _, layouts, lower⟩ := lines_only_reported .standard
  exact ⟨alike, layouts _ _ _ alike true .fresh, (lower 2 "1 / 0").2 true .fresh⟩

end Session

end Scriptlet
