import Scriptlet.Number.Decimal

/-! Text forms of numbers. The compact form has the fewest digits that read
back, is positional from 0.0001 up to 10^16 and has an exponent outside that
range, and always shows a point or an exponent. The plain form of a number
without a fraction is its exact whole value. The literal form uses digits and
at most one point, as the language has no other spelling; infinity is written
as a number that is too large, which reads back as infinity. -/
namespace Scriptlet

namespace Decimal

/-- Digits with the point in place; a whole value keeps no point. -/
def positional (d : Decimal) : String :=
  let digits := Nat.toDigits 10 d.digits
  if 0 ≤ d.exponent then
    String.ofList (digits ++ List.replicate d.exponent.natAbs '0')
  else
    let places := d.exponent.natAbs
    if places < digits.length then
      String.ofList (digits.take (digits.length - places) ++ '.' :: digits.drop (digits.length - places))
    else
      String.ofList ('0' :: '.' :: (List.replicate (places - digits.length) '0' ++ digits))

def leadingExponent (d : Decimal) : Int :=
  d.exponent + (countDigits d.digits : Int) - 1

/-- One digit before the point, and an exponent of at least two digits. -/
def scientific (d : Decimal) : String :=
  let mantissa := match Nat.toDigits 10 d.digits with
    | [] => []
    | [digit] => [digit]
    | digit :: more => digit :: '.' :: more
  let exponent := d.leadingExponent
  let size := Nat.toDigits 10 exponent.natAbs
  String.ofList (mantissa ++ 'e' :: (if exponent < 0 then '-' else '+') ::
    (List.replicate (2 - size.length) '0' ++ size))

/-- Positional up to sixteen digits before the point and four places after it. -/
def compact (d : Decimal) : String :=
  if -4 ≤ d.leadingExponent ∧ d.leadingExponent < 16 then
    if 0 ≤ d.exponent then d.positional ++ ".0" else d.positional
  else d.scientific

end Decimal

namespace Number

def minus (negative : Bool) : String := if negative then "-" else ""

def compact : Number → String
  | .undefined => "nan"
  | .infinite negative => minus negative ++ "inf"
  | .finite negative m => minus negative ++ (Decimal.shortest m).compact

/-- The plain form: whole values in full, without a sign on zero. -/
def plain (n : Number) : String :=
  match n.whole? with
  | some value => minus (value < 0) ++ Nat.repr value.natAbs
  | none => n.compact

def literal (n : Number) : String :=
  match n with
  | .undefined => "NaN"
  | .infinite _ => String.ofList ('1' :: List.replicate 309 '0')
  | .finite negative m =>
    match n.whole? with
    | some _ => n.plain
    | none => minus negative ++ (Decimal.shortest m).positional

def ofNumeral (whole fraction : List Char) : Number :=
  ofDecimal false ⟨Nat.ofDigitChars 10 (whole ++ fraction) 0, -(fraction.length : Int)⟩

def exponent? : List Char → Option Int
  | [] => some 0
  | 'e' :: '-' :: digits => (natural? digits).map fun size => -(size : Int)
  | 'e' :: '+' :: digits => (natural? digits).map Int.ofNat
  | 'e' :: digits => (natural? digits).map Int.ofNat
  | _ => none
where
  natural? (digits : List Char) : Option Nat :=
    if digits.isEmpty || digits.any fun c => !c.isDigit then none
    else some (Nat.ofDigitChars 10 digits 0)

/-- The size at the end of a compact form, read back. -/
def size? (negative : Bool) (text : List Char) : Option Number :=
  let (whole, after) := text.span Char.isDigit
  if whole = [] then none
  else
    let (fraction, after) := match after with
      | '.' :: more => more.span Char.isDigit
      | more => ([], more)
    (exponent? after).map fun exponent =>
      ofDecimal negative
        ⟨Nat.ofDigitChars 10 (whole ++ fraction) 0, exponent - (fraction.length : Int)⟩

def ofCompact? (text : String) : Option Number :=
  match text.toList with
  | ['n', 'a', 'n'] => some .undefined
  | ['i', 'n', 'f'] => some (.infinite false)
  | ['-', 'i', 'n', 'f'] => some (.infinite true)
  | '-' :: size => size? true size
  | size => size? false size

end Number

end Scriptlet
