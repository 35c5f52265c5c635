/-! The grid of finite sizes. A size is a whole number of units of 2^-1074, the
least positive number, and is smaller than 2^1024. Its distance to the next
size is 2^(log2 - 52) units, which leaves 53 significant bits. Rounding takes
an exact quotient of units to the nearest point of this grid, a half going to
the even neighbour; the grid itself is closed under it. -/
namespace Scriptlet

namespace Magnitude

def fractionBits : Nat := 1074

def wholeBits : Nat := 1024

def one : Nat := Nat.pow 2 fractionBits

/-- The first power of two that is too large, in units. -/
def limit : Nat := Nat.pow 2 (fractionBits + wholeBits)

/-- The distance between neighbours of the grid at this size, in units. -/
def spacing (units : Nat) : Nat := Nat.pow 2 (units.log2 - 52)

theorem power_pos (exponent : Nat) : 0 < Nat.pow 2 exponent := Nat.two_pow_pos exponent

theorem one_pos : 0 < one := by
  unfold one
  exact power_pos fractionBits

theorem limit_pos : 0 < limit := by
  unfold limit
  exact power_pos (fractionBits + wholeBits)

theorem spacing_pos (units : Nat) : 0 < spacing units := power_pos _

end Magnitude

/-- A finite size on the grid. -/
structure Magnitude where
  units : Nat
  below : units < Magnitude.limit
  aligned : Magnitude.spacing units ∣ units
  deriving DecidableEq

namespace Magnitude

def zero : Magnitude := ⟨0, limit_pos, Nat.dvd_zero _⟩

instance : Inhabited Magnitude := ⟨zero⟩

theorem ext_units {a b : Magnitude} (same : a.units = b.units) : a = b := by
  cases a; cases b; simp only at same; subst same; rfl

/-- The whole number nearest to a quotient; of two equally near the even one. -/
def nearestEven (numerator denominator : Nat) : Nat :=
  let below := numerator / denominator
  let excess := 2 * (numerator % denominator)
  if excess < denominator then below
  else if denominator < excess then below + 1
  else below + below % 2

/-- The quotient on the grid, in units, the grid being taken as unbounded. -/
def round (numerator denominator : Nat) : Nat :=
  let step := spacing (numerator / denominator)
  nearestEven numerator (denominator * step) * step

theorem nearestEven_le (numerator denominator : Nat) :
    nearestEven numerator denominator ≤ numerator / denominator + 1 := by
  unfold nearestEven
  have parity := Nat.mod_lt (numerator / denominator) (y := 2) (by omega)
  dsimp only
  split
  · omega
  · split <;> omega

theorem nearestEven_mul {denominator : Nat} (positive : 0 < denominator) (n : Nat) :
    nearestEven (n * denominator) denominator = n := by
  simp [nearestEven, Nat.mul_div_cancel n positive, positive]

theorem significand_le (n : Nat) : n / spacing n + 1 ≤ Nat.pow 2 53 := by
  have bound : n < Nat.pow 2 (n.log2 + 1) := Nat.lt_log2_self
  have larger : n < Nat.pow 2 53 * spacing n := by
    have joined : Nat.pow 2 (53 + (n.log2 - 52)) = Nat.pow 2 53 * spacing n :=
      Nat.pow_add 2 53 (n.log2 - 52)
    rw [← joined]
    exact Nat.lt_of_lt_of_le bound (Nat.pow_le_pow_right (by omega) (by omega))
  exact (Nat.div_lt_iff_lt_mul (spacing_pos n)).2 larger

theorem aligned_of_significand {significand exponent : Nat}
    (bound : significand ≤ Nat.pow 2 53) :
    spacing (significand * Nat.pow 2 exponent) ∣ significand * Nat.pow 2 exponent := by
  have joined : Nat.pow 2 (53 + exponent) = Nat.pow 2 53 * Nat.pow 2 exponent :=
    Nat.pow_add 2 53 exponent
  rcases Nat.lt_or_ge significand (Nat.pow 2 53) with small | large
  · by_cases nothing : significand * Nat.pow 2 exponent = 0
    · rw [nothing]; exact Nat.dvd_zero _
    · have fits : (significand * Nat.pow 2 exponent).log2 < 53 + exponent := by
        apply (Nat.log2_lt nothing).2
        show significand * Nat.pow 2 exponent < Nat.pow 2 (53 + exponent)
        rw [joined]
        exact (Nat.mul_lt_mul_right (Nat.two_pow_pos exponent)).2 small
      exact Nat.dvd_trans (Nat.pow_dvd_pow 2 (by omega)) (Nat.dvd_mul_left _ _)
  · have whole : significand = Nat.pow 2 53 := Nat.le_antisymm bound large
    rw [whole, ← joined]
    have size : (Nat.pow 2 (53 + exponent)).log2 = 53 + exponent := Nat.log2_two_pow
    unfold spacing
    rw [size]
    exact Nat.pow_dvd_pow 2 (by omega)

theorem aligned_round (numerator denominator : Nat) :
    spacing (round numerator denominator) ∣ round numerator denominator := by
  unfold round
  dsimp only
  apply aligned_of_significand
  have near := nearestEven_le numerator (denominator * spacing (numerator / denominator))
  have top := significand_le (numerator / denominator)
  rw [← Nat.div_div_eq_div_mul] at near
  omega

theorem round_mul (m : Magnitude) {denominator : Nat} (positive : 0 < denominator) :
    round (m.units * denominator) denominator = m.units := by
  unfold round
  dsimp only
  rw [Nat.mul_div_cancel _ positive]
  have step := spacing_pos m.units
  obtain ⟨count, same⟩ := m.aligned
  generalize spacing m.units = gap at same step
  have regrouped : m.units * denominator = count * (denominator * gap) := by
    rw [same, Nat.mul_comm gap, Nat.mul_assoc, Nat.mul_comm gap]
  rw [regrouped, nearestEven_mul (Nat.mul_pos positive step), Nat.mul_comm, ← same]

/-- The nearest size, or none where the quotient rounds past the largest. -/
def nearest? (numerator denominator : Nat) : Option Magnitude :=
  if below : round numerator denominator < limit then
    some ⟨round numerator denominator, below, aligned_round numerator denominator⟩
  else none

theorem nearest?_mul (m : Magnitude) {denominator : Nat} (positive : 0 < denominator) :
    nearest? (m.units * denominator) denominator = some m := by
  unfold nearest?
  rw [dif_pos (by rw [round_mul m positive]; exact m.below)]
  exact congrArg some (ext_units (round_mul m positive))

end Magnitude

end Scriptlet
