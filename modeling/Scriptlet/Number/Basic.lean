import Scriptlet.Number.Magnitude

/-! Numbers: a sign and a finite size, the two infinities, and the result of an
operation that has none. Every operation takes the exact result, as a quotient
of units, and rounds it once. A sum of zero is negative only where both terms
are, a product or quotient is negative where the signs differ, and comparison
sees neither the sign of zero nor any number equal to an undefined one. -/
namespace Scriptlet

inductive Number
  | undefined
  | infinite (negative : Bool)
  | finite (negative : Bool) (magnitude : Magnitude)
  deriving DecidableEq, Inhabited

namespace Number

/-- A quotient of units, rounded; one that is too large is infinite. -/
def ofUnits (negative : Bool) (numerator denominator : Nat) : Number :=
  match Magnitude.nearest? numerator denominator with
  | some magnitude => .finite negative magnitude
  | none => .infinite negative

theorem ofUnits_mul (negative : Bool) (m : Magnitude) {denominator : Nat}
    (positive : 0 < denominator) :
    ofUnits negative (m.units * denominator) denominator = .finite negative m := by
  unfold ofUnits
  rw [Magnitude.nearest?_mul m positive]

def signed (negative : Bool) (m : Magnitude) : Int :=
  if negative then -(m.units : Int) else m.units

def neg : Number → Number
  | .undefined => .undefined
  | .infinite negative => .infinite (!negative)
  | .finite negative m => .finite (!negative) m

def add : Number → Number → Number
  | .undefined, _ | _, .undefined => .undefined
  | .infinite a, .infinite b => if a = b then .infinite a else .undefined
  | .infinite a, .finite _ _ => .infinite a
  | .finite _ _, .infinite b => .infinite b
  | .finite a m, .finite b n =>
    let sum := signed a m + signed b n
    ofUnits (if sum = 0 then a && b else decide (sum < 0)) sum.natAbs 1

def sub (a b : Number) : Number := a.add b.neg

def mul : Number → Number → Number
  | .undefined, _ | _, .undefined => .undefined
  | .infinite a, .infinite b => .infinite (a != b)
  | .infinite a, .finite b n => if n.units = 0 then .undefined else .infinite (a != b)
  | .finite a m, .infinite b => if m.units = 0 then .undefined else .infinite (a != b)
  | .finite a m, .finite b n => ofUnits (a != b) (m.units * n.units) Magnitude.one

def div : Number → Number → Number
  | .undefined, _ | _, .undefined => .undefined
  | .infinite _, .infinite _ => .undefined
  | .infinite a, .finite b _ => .infinite (a != b)
  | .finite a _, .infinite b => .finite (a != b) .zero
  | .finite a m, .finite b n =>
    if n.units = 0 then
      if m.units = 0 then .undefined else .infinite (a != b)
    else ofUnits (a != b) (m.units * Magnitude.one) n.units

/-- Equality of values: an undefined number equals none, the zeros are equal. -/
def same : Number → Number → Bool
  | .infinite a, .infinite b => a == b
  | .finite a m, .finite b n => signed a m == signed b n
  | _, _ => false

def less : Number → Number → Bool
  | .undefined, _ | _, .undefined => false
  | .infinite a, .infinite b => a && !b
  | .infinite a, .finite _ _ => a
  | .finite _ _, .infinite b => !b
  | .finite a m, .finite b n => signed a m < signed b n

def lessOrSame (a b : Number) : Bool := a.less b || a.same b

def isZero : Number → Bool
  | .finite _ m => m.units == 0
  | _ => false

/-- The whole value of a finite number that has no fraction. -/
def whole? : Number → Option Int
  | .finite negative m =>
    if m.units % Magnitude.one = 0 then
      let size : Int := (m.units / Magnitude.one : Nat)
      some (if negative then -size else size)
    else none
  | _ => none

end Number

end Scriptlet
