import Scriptlet.Token.Piece

/-! The tokens of a source text: its pieces with their lines. A token is on the
line on which its text ends, except that an unterminated quoted text is
reported on the line on which it starts. Layout makes no token, and the list
ends with the one token of kind eof, on the last line. -/
namespace Scriptlet

namespace Piece

/-- Lines that end inside the piece. -/
def newlines (p : Piece) : Nat := p.text.count '\n'

def fault? : Piece → Option String
  | unexpected c => some ("Unexpected character \x60" ++ String.singleton c ++ "\x60")
  | strayClose => some "Unexpected end of comment outside block comment"
  | openQuote _ => some "Unterminated string"
  | openComment _ => some "Unterminated block comment"
  | _ => none

def meaning? : Piece → Option (Kind × Value)
  | mark kind => some (kind, .nil)
  | word letters => some (Kind.ofWord (String.ofList letters), .nil)
  | numeral whole fraction => some (.number, .number (Number.ofNumeral whole fraction))
  | quoted content => some (.string, .text (String.ofList content))
  | p => p.fault?.map fun message => (.error, .text message)

/-- The line of the token of a piece that starts on the given line. -/
def tokenLine (line : Int) (p : Piece) : Int :=
  match p with
  | openQuote _ => line
  | p => line + p.newlines

def token? (line : Int) (p : Piece) : Option Token :=
  p.meaning?.map fun (kind, literal) =>
    ⟨kind, String.ofList p.text, p.tokenLine line, literal⟩

end Piece

namespace Token

private def ofPiecesOnto (earlier : List Token) (line : Int) : List Piece → List Token
  | [] => (eof line :: earlier).reverse
  | p :: more =>
    match p.token? line with
    | some t => ofPiecesOnto (t :: earlier) (line + p.newlines) more
    | none => ofPiecesOnto earlier (line + p.newlines) more

def ofPieces (line : Int) (pieces : List Piece) : List Token := ofPiecesOnto [] line pieces

theorem ofPiecesOnto_eq (earlier : List Token) (line : Int) (pieces : List Piece) :
    ofPiecesOnto earlier line pieces = earlier.reverse ++ ofPieces line pieces := by
  unfold ofPieces
  induction pieces generalizing earlier line with
  | nil => simp [ofPiecesOnto]
  | cons p more ih =>
    unfold ofPiecesOnto
    cases p.token? line with
    | none => exact ih _ _
    | some t =>
      dsimp only
      rw [ih (t :: earlier), ih [t]]
      simp

@[simp] theorem ofPieces_nil (line : Int) : ofPieces line [] = [eof line] := rfl

theorem ofPieces_cons (line : Int) (p : Piece) (more : List Piece) :
    ofPieces line (p :: more) =
      (p.token? line).toList ++ ofPieces (line + p.newlines) more := by
  rw [ofPieces, ofPiecesOnto]
  cases p.token? line with
  | none => rfl
  | some t => exact ofPiecesOnto_eq _ _ _

def scan (source : String) : List Token := ofPieces 1 (Piece.cut source.toList)

end Token

end Scriptlet
