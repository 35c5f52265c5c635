import Scriptlet.Proofs.Grammar.Kinds
import Scriptlet.Proofs.Grammar.Program
import Scriptlet.Proofs.Parse.Parallel
import Scriptlet.Proofs.Token.Lines

/-! Programs one below the other. Each is read as if it stood alone, so a text
that is made of two valid programs with a line break between them is the program
of the first, followed by that of the second further down. -/
namespace Scriptlet.Grammar
open Parse Parse.State Token

private theorem bodyNesting_append (found more : List Stmt) :
    Stmt.bodyNesting (found ++ more) = max (Stmt.bodyNesting found) (Stmt.bodyNesting more) := by
  induction found with
  | nil => simp [Stmt.bodyNesting]
  | cons made found ih => simp only [List.cons_append, Stmt.bodyNesting, ih, Nat.max_assoc]

theorem Reads.append {limits : Limits} {ts us : List Token} {found more : List Stmt}
    (first : Reads limits ts found) (second : Reads limits us more) :
    Reads limits (ts ++ us) (found ++ more) := by
  intro bound s rest long room
  rw [List.length_append] at long
  rw [bodyNesting_append] at room
  have remaining : more.length ≤ (bound.drop found.length).length := by
    rw [List.length_drop]
    omega
  rw [List.append_assoc, first bound s (us ++ rest) (by omega) (by omega),
    second (bound.drop found.length) s rest remaining (by omega)]
  simp only [List.drop_drop, List.length_append, List.append_assoc]

private theorem renaming_relined (f : Int → Int) : Renaming (relined f) fun _ _ => True :=
  ⟨fun _ => rfl, fun _ => rfl, fun _ _ => trivial, fun _ => trivial⟩

theorem eq_of_isValid {α : Type} {parsed : Parsed α} (valid : parsed.isValid = true) :
    parsed = ⟨parsed.tree, []⟩ := by
  obtain ⟨tree, diagnostics⟩ := parsed
  have nothing : diagnostics = [] := List.isEmpty_iff.1 valid
  rw [nothing]

theorem program_of_renamed {f : Token → Token} {D : Diagnostic → Diagnostic → Prop}
    (unseen : Renaming f D) {limits : Limits} {tokens tokens' : List Token} {found : List Stmt}
    (finish : ∀ fault, D (.atToken (State.start tokens).finish fault)
      (.atToken (State.start tokens').finish fault))
    (rest : tokens'.takeWhile (·.kind != .eof) = (tokens.takeWhile (·.kind != .eof)).map f)
    (valid : program limits tokens = ⟨found, []⟩) :
    program limits tokens' = ⟨found.map (Stmt.mapTokens f), []⟩ := by
  obtain ⟨tree, diagnostics⟩ := program_renamed unseen limits rest finish
  rw [valid] at tree diagnostics
  cases result : program limits tokens' with
  | mk tree' diagnostics' =>
    rw [result] at tree diagnostics
    dsimp only at tree diagnostics
    rw [tree, List.forall₂_nil_left_iff.1 diagnostics]

private theorem program_relined (f : Int → Int) {limits : Limits} {tokens tokens' : List Token}
    {found : List Stmt}
    (rest : tokens'.takeWhile (·.kind != .eof) =
      (tokens.takeWhile (·.kind != .eof)).map (relined f))
    (valid : program limits tokens = ⟨found, []⟩) :
    program limits tokens' = ⟨found.map (Stmt.mapTokens (relined f)), []⟩ :=
  program_of_renamed (renaming_relined f) (fun _ => trivial) rest valid

private theorem closed_of_program {limits : Limits} {source : String} {found : List Stmt}
    (valid : program limits (scan source) = ⟨found, []⟩) :
    ∀ p ∈ Piece.cut source.toList, p.isOpen = false := by
  obtain ⟨derived, _⟩ := program_sound valid
  rw [takeWhile_scan] at derived
  exact closed_of_spoken (usable_of_program derived)

theorem program_newline {limits : Limits} {first second : String} {found more : List Stmt}
    (valid : program limits (scan first) = ⟨found, []⟩)
    (valid' : program limits (scan second) = ⟨more, []⟩) :
    program limits (scan (first ++ "\n" ++ second)) =
      ⟨found ++ more.map (Stmt.mapTokens (relined (below first))), []⟩ := by
  have ended : ((spoken 1 (Piece.cut second.toList)).map (relined (below first)) ++
      [eof 1]).takeWhile (·.kind != .eof) =
        (spoken 1 (Piece.cut second.toList)).map (relined (below first)) := by
    refine takeWhile_finish (fun t member => ?_) rfl
    obtain ⟨u, among, rfl⟩ := List.mem_map.1 member
    show u.kind ≠ .eof
    exact ne_eof_of_spoken among
  have lower := program_relined (below first) (ended.trans (by rw [takeWhile_scan])) valid'
  have whole : (scan (first ++ "\n" ++ second)).takeWhile (·.kind != .eof) =
      (scan first).takeWhile (·.kind != .eof) ++
        ((spoken 1 (Piece.cut second.toList)).map (relined (below first)) ++ [eof 1]).takeWhile
          (·.kind != .eof) := by
    rw [takeWhile_scan, takeWhile_scan, spoken_newline (closed_of_program valid), ended]
  obtain ⟨derived, room⟩ := program_sound valid
  obtain ⟨derived', room'⟩ := program_sound lower
  refine program_of_reads ((reads_of_program valid).append (reads_of_program lower))
    (program_append derived derived') ?_ whole
  rw [bodyNesting_append]
  exact Nat.max_le.2 ⟨room, room'⟩

end Scriptlet.Grammar
