/-! Lines of a text, and the blanks around a line. A line of an input ends with its
newline, which belongs to it; only the last line may lack one. In a file, a carriage
return and the pair of carriage return and newline mean a newline. Blanks are the controls
and separators that Unicode counts as white space. -/
namespace Scriptlet.Text

/-- The first line with its newline, and the text after it. -/
def splitLine : List Char → List Char × List Char
  | [] => ([], [])
  | '\n' :: rest => (['\n'], rest)
  | c :: rest =>
    let (line, after) := splitLine rest
    (c :: line, after)

theorem splitLine_append (text : List Char) : (splitLine text).1 ++ (splitLine text).2 = text := by
  fun_induction splitLine text <;> simp_all

theorem splitLine_ne (c : Char) (rest : List Char) : (splitLine (c :: rest)).1 ≠ [] := by
  unfold splitLine
  split <;> simp_all

theorem splitLine_shorter {text : List Char} (some_text : text ≠ []) :
    (splitLine text).2.length < text.length := by
  cases text with
  | nil => exact absurd rfl some_text
  | cons c rest =>
    have whole := congrArg List.length (splitLine_append (c :: rest))
    have taken := List.length_pos_iff.2 (splitLine_ne c rest)
    rw [List.length_append] at whole
    omega

/-- A text with every ending of a line written as a newline. -/
def unified : List Char → List Char
  | [] => []
  | '\r' :: '\n' :: rest => '\n' :: unified rest
  | '\r' :: rest => '\n' :: unified rest
  | c :: rest => c :: unified rest

/-- The blank characters as ranges of code points, both ends included. -/
def blankRanges : List (Nat × Nat) :=
  [(0x09, 0x0D), (0x1C, 0x20), (0x85, 0x85), (0xA0, 0xA0), (0x1680, 0x1680), (0x2000, 0x200A),
   (0x2028, 0x2029), (0x202F, 0x202F), (0x205F, 0x205F), (0x3000, 0x3000)]

def isBlank (c : Char) : Bool :=
  blankRanges.any fun (low, high) => low ≤ c.toNat && c.toNat ≤ high

def trimmed (text : List Char) : List Char :=
  ((text.dropWhile isBlank).reverse.dropWhile isBlank).reverse

end Scriptlet.Text
