import Scriptlet.Proofs.Session.Interactive
import Scriptlet.Proofs.Grammar.Single
import Scriptlet.Proofs.Parse.Guards
import Scriptlet.Proofs.Session.Lines

/-! An expression by itself and as a statement. By itself it ends where the tokens do, in a
statement at a semicolon, and only in a statement is a fault recovered from. The tokens are a
derivation of it in either case, which is read the same way before the one and the other; the
statement has one level of recursion less for it. So the expression that an interactive
session prints is the one that the statement with the same tokens prints. -/
namespace Scriptlet

namespace Grammar
open Parse Parse.State

private theorem rule_deeper {limit depth deeper : Nat} {s s' : State} {r : Rule} {e : Expr}
    (more : depth ≤ deeper) (ran : rule limit depth r s = .ok e s') (quiet : s'.reports = []) :
    rule limit deeper r s = .ok e s' := by
  rw [← ran]
  refine (lifts_rule (Nat.le_refl limit) more r).same s fun fires => ?_
  rw [ran, fires_ok, guards, guards, quiet] at fires
  exact Nat.not_lt_zero _ fires

private theorem closes_nil (r : Rule) : Closes r [] where
  clear _ next := by cases next
  apart _ _ next := by cases next

section Alone
variable {limits : Limits} {ts : List Token} {finish : Token} {e : Expr}

private theorem bareExpression_of_rule (inside : ∀ t ∈ ts, t.kind ≠ .eof) (final : finish.kind = .eof)
    (ran : rule limits.nesting limits.depth .expression ((idle (ts ++ [finish])).facing ts) =
      .ok e ((idle (ts ++ [finish])).facing [])) :
    (bareExpression limits (ts ++ [finish])).tree = some e := by
  have sole : soleExpression limits (State.start (ts ++ [finish])) =
      .ok e ((idle (ts ++ [finish])).facing []) := by
    rw [start_eq, takeWhile_finish inside final]
    exact bind_of_ok ran
  unfold bareExpression
  rw [sole]
  rfl

private theorem bareExpression_of_reads (inside : ∀ t ∈ ts, t.kind ≠ .eof) (final : finish.kind = .eof)
    (room : e.nesting + 1 ≤ limits.nesting) (reads : ReadsWith [] limits ts e) :
    (bareExpression limits (ts ++ [finish])).tree = some e := by
  obtain ⟨depth, deep, ran⟩ := reads
  have fits : Fits limits.nesting .expression e (idle (ts ++ [finish])) [] :=
    ⟨by simpa [idle, entry] using room, closes_nil _⟩
  have read := ran _ _ fits
  rw [List.append_nil] at read
  exact bareExpression_of_rule inside final (rule_deeper (by omega) read rfl)

end Alone

section Statements
variable {limits : Limits} {ts : List Token} {semicolon finish finish' : Token} {e : Expr}
  (inside : ∀ t ∈ ts, t.kind ≠ .eof) (ended : semicolon.kind = .semicolon)
  (final : finish.kind = .eof) (final' : finish'.kind = .eof)

include inside ended final final' in
private theorem bareExpression_iff
    (shallow : ∀ d ∈ (program limits (ts ++ [semicolon, finish])).diagnostics,
      d.fault ≠ .tooDeep) :
    (bareExpression limits (ts ++ [finish'])).tree = some e ↔
      program limits (ts ++ [semicolon, finish]) = ⟨[.expression e], []⟩ := by
  constructor
  · intro found
    obtain ⟨derived, room⟩ := bareExpression_sound found
    rw [takeWhile_finish inside final'] at derived
    have unled := unled_of_derives derived [semicolon]
    rcases readsWith_or_deep inside ended final unled room
      fun depth => (settles_rule derived depth).quiet with reads | deep
    · exact reads.program_eq inside ended final unled room .alone
    · obtain ⟨d, member, fault⟩ := deep [] _ .alone
      exact absurd fault (shallow d member)
  · intro valid
    obtain ⟨_, room⟩ := Lead.alone.sound inside ended final valid
    exact bareExpression_of_reads inside final' room
      (reads_of_valid .alone inside ended final valid)

include inside ended final in
private theorem valid_of_lead {before before' : List Token} {make make' : Expr → Stmt}
    (lead : Lead before make) (lead' : Lead before' make')
    (valid : program limits (before ++ (ts ++ [semicolon, finish])) = ⟨[make e], []⟩) :
    program limits (before' ++ (ts ++ [semicolon, finish])) = ⟨[make' e], []⟩ := by
  obtain ⟨derived, room⟩ := lead.sound inside ended final valid
  exact (reads_of_valid lead inside ended final valid).program_eq inside ended final
    (unled_of_derives derived _) room lead'

end Statements

end Grammar

namespace Session
open Parse Grammar

private theorem same_of_printed {settings : Settings} {tokens tokens' : List Token} {e : Expr}
    (found : (bareExpression settings.limits tokens).tree = some e)
    (valid : program settings.limits tokens' = ⟨[.print e], []⟩) (session : Session) :
    Turn.Same (runProgram settings tokens' session)
      (runInteractive settings tokens session) := by
  unfold runProgram runInteractive
  rw [found, valid]
  exact ⟨rfl, rfl, rfl⟩

/-- Tokens that do not exhaust the levels of recursion are an expression by themselves just
where with a semicolon behind them they are the statement of that expression, and just where
with the word before them they are the statement that prints it. So an interactive session
does with the expression what a script does with that statement. -/
theorem bareExpression_printed {settings : Settings} {ts : List Token}
    {print semicolon finish finish' : Token} (inside : ∀ t ∈ ts, t.kind ≠ .eof)
    (word : print.kind = .printWord) (ended : semicolon.kind = .semicolon)
    (final : finish.kind = .eof) (final' : finish'.kind = .eof)
    (shallow : ∀ d ∈ (program settings.limits (ts ++ [semicolon, finish])).diagnostics,
      d.fault ≠ .tooDeep) :
    ∀ e,
      ((bareExpression settings.limits (ts ++ [finish'])).tree = some e ↔
        program settings.limits (ts ++ [semicolon, finish]) = ⟨[.expression e], []⟩) ∧
      (program settings.limits (ts ++ [semicolon, finish]) = ⟨[.expression e], []⟩ ↔
        program settings.limits (print :: (ts ++ [semicolon, finish])) = ⟨[.print e], []⟩) ∧
      ((bareExpression settings.limits (ts ++ [finish'])).tree = some e → ∀ session,
        Turn.Same (runProgram settings (print :: (ts ++ [semicolon, finish])) session)
          (runInteractive settings (ts ++ [finish']) session)) := by
  intro e
  have alone : (bareExpression settings.limits (ts ++ [finish'])).tree = some e ↔
      program settings.limits (ts ++ [semicolon, finish]) = ⟨[.expression e], []⟩ :=
    bareExpression_iff inside ended final final' shallow
  have printed : program settings.limits (ts ++ [semicolon, finish]) = ⟨[.expression e], []⟩ →
      program settings.limits (print :: (ts ++ [semicolon, finish])) = ⟨[.print e], []⟩ :=
    valid_of_lead inside ended final .alone (.print word)
  refine ⟨alone, ⟨printed, valid_of_lead inside ended final (.print word) .alone⟩, ?_⟩
  exact fun found session => same_of_printed found (printed (alone.1 found)) session

/-- An expression that fails when it is evaluated. -/
theorem bareExpression_printed_negation :
    let ts : List Token := [.plain .minus 1, .plain .nilWord 1]
    let printed := runProgram .standard
      (.plain .printWord 1 :: (ts ++ [.plain .semicolon 1, .eof 1])) .fresh
    Turn.Same printed (runInteractive .standard (ts ++ [.eof 1]) .fresh) ∧
      printed.verdict = .halted (.operandNotNumber (.plain .minus 1)) := by
  intro ts printed
  have every := @bareExpression_printed .standard ts (.plain .printWord 1) (.plain .semicolon 1)
    (.eof 1) (.eof 1) (by decide) rfl rfl rfl rfl (by decide +kernel)
    (.unary (.plain .minus 1) (.literal .nil))
  exact ⟨every.2.2 (by decide +kernel) .fresh, by decide +kernel⟩

end Session

end Scriptlet
