import Scriptlet.Proofs.Parse.Cursor
import Scriptlet.Proofs.Parse.Parallel
import Scriptlet.Proofs.Token.Lines

/-! A parse of tokens on other lines. The parser carries the lines of its tokens into
the tree and into the reports and does nothing else with them, so a token list whose
lines are changed makes the tree and the reports with the lines changed alike. -/
namespace Scriptlet
open Token

def Diagnostic.relined (f : Int → Int) (d : Diagnostic) : Diagnostic := { d with line := f d.line }

namespace Parse
open State

def Parsed.relined {α : Type} (f : Int → Int) (g : α → α) (parsed : Parsed α) : Parsed α :=
  ⟨g parsed.tree, parsed.diagnostics.map (Diagnostic.relined f)⟩

theorem Parsed.isValid_relined {α : Type} (f : Int → Int) (g : α → α) (parsed : Parsed α) :
    (parsed.relined f g).isValid = parsed.isValid :=
  List.isEmpty_map

theorem Parsed.eq_relined {α : Type} {f : Int → Int} {g : α → α} {parsed parsed' : Parsed α}
    (tree : parsed'.tree = g parsed.tree)
    (diagnostics : List.Forall₂ (fun d d' => d.relined f = d') parsed.diagnostics
      parsed'.diagnostics) : parsed' = parsed.relined f g := by
  obtain ⟨tree', diagnostics'⟩ := parsed'
  rw [← List.forall₂_map_left_iff, List.forall₂_eq_eq_eq] at diagnostics
  dsimp only at tree diagnostics
  rw [Parsed.relined, tree, diagnostics]

private theorem renaming_lines (f : Int → Int) :
    Renaming (Token.relined f) fun d d' => d.relined f = d' :=
  ⟨fun _ => rfl, fun _ => rfl, fun _ _ => rfl, fun _ => rfl⟩

section Lists
variable (f : Int → Int) (tokens : List Token)

theorem isComplete_relined : isComplete (tokens.map (relined f)) = isComplete tokens := by
  unfold isComplete
  rw [List.getLast?_map]
  cases tokens.getLast? <;> rfl

private theorem takeWhile_relined :
    (tokens.map (relined f)).takeWhile (·.kind != .eof) =
      (tokens.takeWhile (·.kind != .eof)).map (relined f) :=
  List.takeWhile_map

variable {tokens}

private theorem finish_relined (complete : isComplete tokens = true) :
    (start (tokens.map (relined f))).finish = relined f (start tokens).finish := by
  obtain ⟨finish, found⟩ := Option.isSome_iff_exists.1
    (List.find?_isSome.2 (mem_of_isComplete complete))
  have found' : (tokens.map (relined f)).find? (·.kind == .eof) = some (relined f finish) := by
    rw [List.find?_map]
    exact congrArg (Option.map (relined f)) found
  show ((tokens.map (relined f)).find? (·.kind == .eof)).getD _ =
    relined f ((tokens.find? (·.kind == .eof)).getD _)
  rw [found, found']
  rfl

variable (limits : Limits)

theorem program_lines (complete : isComplete tokens = true) :
    program limits (tokens.map (relined f)) =
      (program limits tokens).relined f (List.map (Stmt.mapTokens (relined f))) := by
  obtain ⟨tree, diagnostics⟩ := program_renamed (renaming_lines f) limits
    (takeWhile_relined f tokens) fun fault => by rw [finish_relined f complete]; rfl
  exact Parsed.eq_relined tree diagnostics

theorem bareExpression_lines (complete : isComplete tokens = true) :
    bareExpression limits (tokens.map (relined f)) =
      (bareExpression limits tokens).relined f (Option.map (Expr.mapTokens (relined f))) := by
  obtain ⟨tree, diagnostics⟩ := bareExpression_renamed (renaming_lines f) limits
    (takeWhile_relined f tokens) fun fault => by rw [finish_relined f complete]; rfl
  exact Parsed.eq_relined tree diagnostics

end Lists

end Parse

end Scriptlet
