import Scriptlet.Number.Basic

/-! Decimals, and their two ties to numbers. Reading rounds a decimal to the
nearest number. Writing chooses the decimal with the fewest digits that reads
back as the number, and of two such decimals the nearer one: on each decimal
grid only the two neighbours of the exact value can do, so those are tried, on
coarser grids first. -/
namespace Scriptlet

/-- The value digits * 10^exponent. -/
structure Decimal where
  digits : Nat
  exponent : Int
  deriving DecidableEq, Inhabited

namespace Number

def ofDecimal (negative : Bool) (d : Decimal) : Number :=
  if 0 ≤ d.exponent then
    ofUnits negative (d.digits * Nat.pow 10 d.exponent.natAbs * Magnitude.one) 1
  else
    ofUnits negative (d.digits * Magnitude.one) (Nat.pow 10 d.exponent.natAbs)

end Number

namespace Decimal

def countDigits (n : Nat) : Nat := (Nat.toDigits 10 n).length

/-- All the digits of a size: one unit is 5^1074 * 10^-1074. -/
def exact (m : Magnitude) : Decimal :=
  ⟨m.units * Nat.pow 5 Magnitude.fractionBits, -(Magnitude.fractionBits : Int)⟩

/-- The least power of ten above a size other than zero. -/
def ceilingExponent (m : Magnitude) : Int :=
  if Magnitude.one ≤ m.units then (countDigits (m.units / Magnitude.one) : Int)
  else 1 - (countDigits ((Magnitude.one - 1) / m.units) : Int)

/-- A size on the grid of 10^exponent: the point below it, and the remainder
over its denominator. -/
def onGrid (m : Magnitude) (exponent : Int) : Nat × Nat × Nat :=
  let numerator := if 0 ≤ exponent then m.units else m.units * Nat.pow 10 exponent.natAbs
  let denominator :=
    if 0 ≤ exponent then Magnitude.one * Nat.pow 10 exponent.natAbs else Magnitude.one
  (numerator / denominator, numerator % denominator, denominator)

def readsBack (m : Magnitude) (d : Decimal) : Bool :=
  Number.ofDecimal false d == .finite false m

/-- The neighbour on the grid of 10^exponent that reads back, the nearer where
both do, and the even one where both are equally near. -/
def neighbour? (m : Magnitude) (exponent : Int) : Option Decimal :=
  let (point, remainder, denominator) := onGrid m exponent
  let lower : Decimal := ⟨point, exponent⟩
  let upper : Decimal := ⟨point + 1, exponent⟩
  match readsBack m lower, readsBack m upper with
  | true, true =>
    if 2 * remainder < denominator ∨ 2 * remainder = denominator ∧ point % 2 = 0 then
      some lower
    else some upper
  | true, false => some lower
  | false, true => some upper
  | false, false => none

/-- The same value without zeros at the end of its digits. -/
def trimmed (digits : Nat) (exponent : Int) : Decimal :=
  if digits ≠ 0 ∧ digits % 10 = 0 then trimmed (digits / 10) (exponent + 1)
  else ⟨digits, exponent⟩
termination_by digits
decreasing_by omega

/-- The fewest digits that read back. Seventeen always suffice. -/
def shortest (m : Magnitude) : Decimal :=
  if m.units = 0 then ⟨0, 0⟩
  else
    let top := ceilingExponent m
    match (List.range 17).findSome? fun count => neighbour? m (top - (count + 1 : Nat)) with
    | some d => trimmed d.digits d.exponent
    | none => exact m

end Decimal

end Scriptlet
