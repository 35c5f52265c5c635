import Scriptlet.Proofs.Parse.Guards

/-! The limit of nesting and the trees of the grammar. What encloses a point of a program is
the groupings, the middles of ternaries and the blocks around it. The parser also counts
the whole expression of a statement, so it complains of too much nesting where a point has
more enclosures than the limit, and already where the deepest point of an expression has
as many. -/
namespace Scriptlet

mutual

/-- The largest number of enclosures around any point of a statement. -/
def Stmt.enclosures : Stmt → Nat
  | .expression value | .print value => value.nesting
  | .declare _ none => 0
  | .declare _ (some initializer) => initializer.nesting
  | .block body => Stmt.bodyEnclosures body + 1

def Stmt.bodyEnclosures : List Stmt → Nat
  | [] => 0
  | statement :: more => max statement.enclosures (Stmt.bodyEnclosures more)

end

mutual

/-- The enclosures around the deepest point of each expression that a statement has. -/
def Stmt.depths : Stmt → List Nat
  | .expression value | .print value => [value.nesting]
  | .declare _ none => []
  | .declare _ (some initializer) => [initializer.nesting]
  | .block body => (Stmt.bodyDepths body).map (· + 1)

def Stmt.bodyDepths : List Stmt → List Nat
  | [] => []
  | statement :: more => statement.depths ++ Stmt.bodyDepths more

end

namespace Grammar
open Parse Parse.State

mutual

private theorem lt_nesting_iff (limit : Nat) : (made : Stmt) →
    (limit < made.nesting ↔ limit < made.enclosures ∨ limit ∈ made.depths)
  | .expression value | .print value | .declare _ (some value) => by
    simp only [Stmt.nesting, Stmt.enclosures, Stmt.depths, List.mem_singleton]
    omega
  | .declare _ none => by simp [Stmt.nesting, Stmt.enclosures, Stmt.depths]
  | .block body => by
    simp only [Stmt.nesting, Stmt.enclosures, Stmt.depths, List.mem_map]
    cases limit with
    | zero => exact ⟨fun _ => .inl (Nat.succ_pos _), fun _ => Nat.succ_pos _⟩
    | succ limit => simpa using lt_bodyNesting_iff limit body

private theorem lt_bodyNesting_iff (limit : Nat) : (found : List Stmt) →
    (limit < Stmt.bodyNesting found ↔
      limit < Stmt.bodyEnclosures found ∨ limit ∈ Stmt.bodyDepths found)
  | [] => by simp [Stmt.bodyNesting, Stmt.bodyEnclosures, Stmt.bodyDepths]
  | made :: more => by
    have first := lt_nesting_iff limit made
    have rest := lt_bodyNesting_iff limit more
    simp only [Stmt.bodyNesting, Stmt.bodyEnclosures, Stmt.bodyDepths, List.mem_append]
    grind

end

section Reported
variable {limits : Limits} {tokens : List Token} {finish : Token} {found : List Stmt}

theorem program_of_derives (unended : ∀ t ∈ tokens, t.kind ≠ .eof) (ended : finish.kind = .eof)
    (derived : Program tokens found) (room : Stmt.bodyNesting found ≤ limits.nesting)
    (shallow : ∀ d ∈ (program limits (tokens ++ [finish])).diagnostics, d.fault ≠ .tooDeep) :
    program limits (tokens ++ [finish]) = ⟨found, []⟩ := by
  have whole := takeWhile_finish unended ended
  rcases reads_or_deep derived room with reads | deep
  · exact program_of_reads reads derived room whole
  · obtain ⟨d, member, fault⟩ := deep (tokens ++ [finish]) [] (by rw [whole, List.append_nil])
    exact absurd fault (shallow d (List.mem_reverse.2 member))

/-- Where the parser counts more, it complains: else it would read the same under a larger
limit, where it reads the derived program, and without faults it never passes its limit. -/
theorem nesting_reported (unended : ∀ t ∈ tokens, t.kind ≠ .eof) (ended : finish.kind = .eof)
    (derived : Program tokens found) (exceeded : limits.nesting < Stmt.bodyNesting found)
    (shallow : ∀ d ∈ (program limits (tokens ++ [finish])).diagnostics, d.fault ≠ .tooDeep) :
    ∃ d ∈ (program limits (tokens ++ [finish])).diagnostics, d.fault = .tooMuchNesting := by
  refine Classical.byContradiction fun silent => ?_
  have quiet : ∀ d ∈ (program limits (tokens ++ [finish])).diagnostics,
      d.fault.isGuard = false := by
    intro d reported
    cases fault : d.fault with
    | tooMuchNesting => exact absurd ⟨d, reported, fault⟩ silent
    | tooDeep => exact absurd fault (shallow d reported)
    | _ => rfl
  obtain ⟨larger, room, levels⟩ : ∃ larger : Limits,
      larger.nesting = Stmt.bodyNesting found ∧ larger.depth = limits.depth :=
    ⟨⟨_, _⟩, rfl, rfl⟩
  have wider : limits.nesting ≤ larger.nesting := by omega
  have same := program_larger wider (Nat.le_of_eq levels.symm) quiet
  have valid := program_of_derives unended ended derived (Nat.le_of_eq room.symm) (by rwa [same])
  rw [same] at valid
  exact Nat.not_lt.2 (program_sound valid).2 exceeded

/-- A derived program that does not exhaust the levels of recursion is found to nest too
much just where a point of it has more enclosures than the limit, or where the deepest
point of one of its expressions has as many. -/
theorem nesting_reported_iff (limits : Limits) (tokens : List Token) (unended : ∀ t ∈ tokens, t.kind ≠ .eof)
    (ended : finish.kind = .eof) (derived : Program tokens found)
    (shallow : ∀ d ∈ (program limits (tokens ++ [finish])).diagnostics, d.fault ≠ .tooDeep) :
    ((∃ d ∈ (program limits (tokens ++ [finish])).diagnostics, d.fault = .tooMuchNesting) ↔
      limits.nesting < Stmt.bodyEnclosures found ∨ limits.nesting ∈ Stmt.bodyDepths found) ∧
    (Stmt.bodyEnclosures found ≤ limits.nesting → limits.nesting ∉ Stmt.bodyDepths found →
      program limits (tokens ++ [finish]) = ⟨found, []⟩) := by
  have counted := lt_bodyNesting_iff limits.nesting found
  have reads : Stmt.bodyNesting found ≤ limits.nesting →
      program limits (tokens ++ [finish]) = ⟨found, []⟩ :=
    fun room => program_of_derives unended ended derived room shallow
  refine ⟨⟨fun ⟨d, reported, _⟩ => ?_, fun deep => ?_⟩, fun within apart => ?_⟩
  · refine counted.1 (Nat.lt_of_not_le fun room => ?_)
    rw [reads room] at reported
    cases reported
  · exact nesting_reported unended ended derived (counted.2 deep) shallow
  · refine reads (Nat.le_of_not_lt fun exceeded => ?_)
    exact (counted.1 exceeded).elim (Nat.not_lt.2 within) apart

/-- A grouping in a block: two enclosures, more than one, and far from forty. -/
theorem nesting_reported_iff_block :
    let tokens : List Token := [.plain .leftBrace 1, .plain .leftParen 1, .plain .nilWord 1,
      .plain .rightParen 1, .plain .semicolon 1, .plain .rightBrace 1]
    (∃ d ∈ (program ⟨1, 50⟩ (tokens ++ [.eof 1])).diagnostics, d.fault = .tooMuchNesting) ∧
      program .standard (tokens ++ [.eof 1]) =
        ⟨[.block [.expression (.grouping (.literal .nil))]], []⟩ := by
  intro tokens
  have valid : program .standard (tokens ++ [.eof 1]) =
      ⟨[.block [.expression (.grouping (.literal .nil))]], []⟩ := by
    decide +kernel
  have derived : Program tokens _ := (program_sound valid).1
  have ended : (Token.eof 1).kind = .eof := rfl
  have small := nesting_reported_iff ⟨1, 50⟩ tokens (by decide) ended derived (by decide +kernel)
  have large := nesting_reported_iff .standard tokens (by decide) ended derived (by decide +kernel)
  exact ⟨small.1.2 (.inl (by decide)), large.2 (by decide) (by decide)⟩

/-- Forty groupings in a statement are already too many. -/
theorem forty_groupings_reported :
    let tokens : List Token := List.replicate 40 (.plain .leftParen 1) ++ .plain .nilWord 1 ::
      (List.replicate 40 (.plain .rightParen 1) ++ [.plain .semicolon 1])
    ∃ found, Program tokens found ∧ Stmt.bodyEnclosures found = Limits.standard.nesting ∧
      (∀ d ∈ (program .standard (tokens ++ [.eof 1])).diagnostics, d.fault ≠ .tooDeep) ∧
      ∃ d ∈ (program .standard (tokens ++ [.eof 1])).diagnostics, d.fault = .tooMuchNesting := by
  intro tokens
  have valid : program ⟨41, 1000⟩ (tokens ++ [.eof 1]) =
      ⟨[.expression (Nat.repeat .grouping 40 (.literal .nil))], []⟩ := by
    decide +kernel
  exact ⟨_, (program_sound valid).1, by decide, by decide +kernel, by decide +kernel⟩

end Reported

end Grammar

end Scriptlet
