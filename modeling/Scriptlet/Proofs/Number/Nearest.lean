import Mathlib.Algebra.Order.Field.Rat
import Mathlib.Algebra.Ring.Parity
import Mathlib.Tactic.FieldSimp
import Mathlib.Tactic.Linarith
import Mathlib.Tactic.Ring
import Scriptlet.Number.Notation

/-! Rounding finds the nearest number. The nearest point of the grid is the one at
the least distance, and of two at the least distance the one whose last bit is
zero; there is just one such point. A quantity whose nearest point is past the
largest size rounds to infinity. So a numeral denotes the number that is nearest
to the exact value of its digits. -/
namespace Scriptlet

namespace Magnitude

/-- A point of the grid, in units, the grid being taken as unbounded. -/
def OnGrid (units : Nat) : Prop := spacing units ∣ units

/-- The bits of a size, as a whole number. -/
def significand (units : Nat) : Nat := units / spacing units

/-- Of all points of the grid this one is nearest to the quantity, and where another
one is as near its last bit is zero. -/
structure Nearest (quantity : ℚ) (units : Nat) : Prop where
  grid : OnGrid units
  near : ∀ other, OnGrid other → |quantity - units| ≤ |quantity - other|
  even : ∀ other, OnGrid other → other ≠ units →
    |quantity - units| = |quantity - other| → Even (significand units)

section Grid

private theorem spacing_dvd {a b : Nat} (ordered : a ≤ b) : spacing a ∣ spacing b := by
  refine Nat.pow_dvd_pow 2 (Nat.sub_le_sub_right ?_ 52)
  by_cases zero : a = 0
  · rw [zero]
    exact Nat.zero_le _
  · exact (Nat.le_log2 (by omega)).2 ((Nat.log2_self_le zero).trans ordered)

/-- The leading bit of a size is a point of the coarsest grid below it. -/
private theorem spacing_dvd_or_le (units : Nat) {point : Nat} (grid : OnGrid point) :
    spacing units ∣ point ∨ point ≤ units / spacing units * spacing units := by
  by_cases zero : units = 0
  · left
    rw [zero]
    exact Nat.one_dvd point
  have leading : Nat.pow 2 units.log2 ≤ units := Nat.log2_self_le zero
  by_cases smaller : point < Nat.pow 2 units.log2
  · right
    obtain ⟨count, same⟩ : spacing units ∣ Nat.pow 2 units.log2 :=
      Nat.pow_dvd_pow 2 (Nat.sub_le _ _)
    have fits : count ≤ units / spacing units := by
      rw [Nat.le_div_iff_mul_le (spacing_pos units), Nat.mul_comm, ← same]
      exact leading
    calc point ≤ Nat.pow 2 units.log2 := smaller.le
      _ = count * spacing units := by rw [same, Nat.mul_comm]
      _ ≤ units / spacing units * spacing units := Nat.mul_le_mul_right _ fits
  · left
    have coarser := spacing_dvd (Nat.not_lt.1 smaller)
    have same : spacing (Nat.pow 2 units.log2) = spacing units := by
      unfold spacing
      rw [show (Nat.pow 2 units.log2).log2 = units.log2 from Nat.log2_two_pow]
    rw [same] at coarser
    exact coarser.trans grid

/-- Between a size rounded down and the next point there is no point of the grid. -/
private theorem le_or_le_of_onGrid (units : Nat) {point : Nat} (grid : OnGrid point) :
    point ≤ units / spacing units * spacing units ∨
      (units / spacing units + 1) * spacing units ≤ point := by
  rcases spacing_dvd_or_le units grid with ⟨count, rfl⟩ | below
  · rw [Nat.mul_comm (spacing units)]
    rcases Nat.lt_or_ge (units / spacing units) count with more | fewer
    · exact .inr (Nat.mul_le_mul_right _ more)
    · exact .inl (Nat.mul_le_mul_right _ fewer)
  · exact .inl below

private theorem significand_normal (units : Nat) :
    Nat.pow 2 52 ≤ units / spacing units ∨ units.log2 - 52 = 0 := by
  by_cases small : units.log2 - 52 = 0
  · exact .inr small
  · left
    have nonzero : units ≠ 0 := by
      rintro rfl
      exact small rfl
    have leading : Nat.pow 2 units.log2 ≤ units := Nat.log2_self_le nonzero
    have split : Nat.pow 2 units.log2 = Nat.pow 2 52 * spacing units := by
      have whole : 52 + (units.log2 - 52) = units.log2 := by omega
      exact (congrArg (Nat.pow 2) whole).symm.trans (Nat.pow_add 2 52 _)
    rw [Nat.le_div_iff_mul_le (spacing_pos units), ← split]
    exact leading

private theorem log2_scaled {count : Nat} (nonzero : count ≠ 0) (exponent : Nat) :
    (count * Nat.pow 2 exponent).log2 = count.log2 + exponent := by
  have positive : 0 < Nat.pow 2 exponent := Nat.two_pow_pos exponent
  refine (Nat.log2_eq_iff (Nat.mul_ne_zero nonzero positive.ne')).2 ⟨?_, ?_⟩
  · calc 2 ^ (count.log2 + exponent) = 2 ^ count.log2 * 2 ^ exponent := Nat.pow_add 2 _ _
      _ ≤ count * 2 ^ exponent := Nat.mul_le_mul_right _ (Nat.log2_self_le nonzero)
  · calc count * 2 ^ exponent < 2 ^ (count.log2 + 1) * 2 ^ exponent :=
          Nat.mul_lt_mul_of_pos_right Nat.lt_log2_self positive
      _ = 2 ^ (count.log2 + exponent + 1) := by
          rw [← Nat.pow_add, Nat.add_right_comm]

private theorem even_significand {count exponent : Nat} (bound : count ≤ Nat.pow 2 53)
    (normal : Nat.pow 2 52 ≤ count ∨ exponent = 0) :
    Even (significand (count * Nat.pow 2 exponent)) ↔ Even count := by
  by_cases nothing : count = 0
  · rw [nothing, Nat.zero_mul]
    exact iff_of_true (by decide) (by decide)
  have size := log2_scaled nothing exponent
  have positive : 0 < Nat.pow 2 exponent := Nat.two_pow_pos exponent
  by_cases top : count = Nat.pow 2 53
  · -- the next power of two: its own spacing is twice as large
    subst top
    have whole : (Nat.pow 2 53).log2 = 53 := Nat.log2_two_pow
    have step : spacing (Nat.pow 2 53 * Nat.pow 2 exponent) = 2 * Nat.pow 2 exponent := by
      unfold spacing
      rw [size, whole, show 53 + exponent - 52 = exponent + 1 by omega]
      exact Nat.pow_succ'
    have half : Nat.pow 2 53 * Nat.pow 2 exponent =
        Nat.pow 2 52 * (2 * Nat.pow 2 exponent) := Nat.mul_assoc (Nat.pow 2 52) 2 _
    have bits : significand (Nat.pow 2 53 * Nat.pow 2 exponent) = Nat.pow 2 52 := by
      unfold significand
      rw [step, half, Nat.mul_div_cancel _ (Nat.mul_pos Nat.two_pos positive)]
    rw [bits]
    exact iff_of_true (by decide) (by decide)
  · have below : count.log2 < 53 := (Nat.log2_lt nothing).2 (Nat.lt_of_le_of_ne bound top)
    have step : spacing (count * Nat.pow 2 exponent) = Nat.pow 2 exponent := by
      unfold spacing
      rw [size]
      congr 1
      rcases normal with large | rfl
      · have above : 52 ≤ count.log2 := (Nat.le_log2 nothing).2 large
        omega
      · omega
    have bits : significand (count * Nat.pow 2 exponent) = count := by
      unfold significand
      rw [step, Nat.mul_div_cancel _ positive]
    rw [bits]

private theorem even_low (units : Nat) :
    Even (significand (units / spacing units * spacing units)) ↔
      Even (units / spacing units) :=
  even_significand (Nat.le_of_succ_le (significand_le units)) (significand_normal units)

private theorem even_high (units : Nat) :
    Even (significand ((units / spacing units + 1) * spacing units)) ↔
      Even (units / spacing units + 1) :=
  even_significand (significand_le units) ((significand_normal units).imp_left Nat.le_succ_of_le)

private theorem onGrid_low (units : Nat) : OnGrid (units / spacing units * spacing units) :=
  aligned_of_significand (Nat.le_of_succ_le (significand_le units))

private theorem onGrid_high (units : Nat) : OnGrid ((units / spacing units + 1) * spacing units) :=
  aligned_of_significand (significand_le units)

end Grid

section Neighbours
variable {quantity : ℚ} {low high : Nat}
  (apart : ∀ point, OnGrid point → point ≤ low ∨ high ≤ point)
include apart

private theorem min_le_distance {other : Nat} (found : OnGrid other) :
    min (quantity - low) (high - quantity) ≤ |quantity - other| := by
  rcases apart other found with less | more
  · have less' : (other : ℚ) ≤ low := by exact_mod_cast less
    exact min_le_iff.2 (.inl (by linarith [le_abs_self (quantity - other)]))
  · have more' : (high : ℚ) ≤ other := by exact_mod_cast more
    exact min_le_iff.2 (.inr (by linarith [neg_abs_le (quantity - other)]))

private theorem nearest_low (grid : OnGrid low) (below : (low : ℚ) ≤ quantity)
    (closer : quantity - low ≤ high - quantity)
    (tie : quantity - low = high - quantity → Even (significand low)) : Nearest quantity low := by
  have here : |quantity - low| = quantity - low := abs_of_nonneg (by linarith)
  refine ⟨grid, fun other found => ?_, fun other found differs same => ?_⟩
  · rw [here, ← min_eq_left closer]
    exact min_le_distance apart found
  · rw [here] at same
    rcases apart other found with less | more
    · have less' : (other : ℚ) < low := by exact_mod_cast lt_of_le_of_ne less differs
      linarith [le_abs_self (quantity - other)]
    · have more' : (high : ℚ) ≤ other := by exact_mod_cast more
      exact tie (by linarith [neg_abs_le (quantity - other)])

private theorem nearest_high (grid : OnGrid high) (above : quantity < high)
    (closer : high - quantity ≤ quantity - low)
    (tie : quantity - low = high - quantity → Even (significand high)) :
    Nearest quantity high := by
  have here : |quantity - high| = high - quantity := by
    rw [abs_sub_comm]
    exact abs_of_nonneg (by linarith)
  refine ⟨grid, fun other found => ?_, fun other found differs same => ?_⟩
  · rw [here, ← min_eq_right closer]
    exact min_le_distance apart found
  · rw [here] at same
    rcases apart other found with less | more
    · have less' : (other : ℚ) ≤ low := by exact_mod_cast less
      exact tie (by linarith [le_abs_self (quantity - other)])
    · have more' : (high : ℚ) < other := by
        exact_mod_cast lt_of_le_of_ne more (Ne.symm differs)
      linarith [neg_abs_le (quantity - other)]

end Neighbours

section Quotient
variable {numerator denominator gap point excess : Nat} (positive : 0 < denominator)
  (split : denominator * gap * point + excess = numerator)
include positive split

private theorem quotient_sub_low :
    (numerator : ℚ) / denominator - (point * gap : Nat) = excess / denominator := by
  have divisor : (denominator : ℚ) ≠ 0 := by exact_mod_cast positive.ne'
  rw [← split]
  push_cast
  field_simp
  ring

private theorem high_sub_quotient :
    ((point + 1) * gap : Nat) - (numerator : ℚ) / denominator =
      (denominator * gap - excess) / denominator := by
  have divisor : (denominator : ℚ) ≠ 0 := by exact_mod_cast positive.ne'
  rw [← split]
  push_cast
  field_simp
  ring

end Quotient

theorem nearest_round (numerator : Nat) {denominator : Nat} (positive : 0 < denominator) :
    Nearest (numerator / denominator) (round numerator denominator) := by
  have step := spacing_pos (numerator / denominator)
  have low_grid := onGrid_low (numerator / denominator)
  have high_grid := onGrid_high (numerator / denominator)
  have low_even := even_low (numerator / denominator)
  have high_even := even_high (numerator / denominator)
  have apart : ∀ point, OnGrid point → _ := fun _ =>
    le_or_le_of_onGrid (numerator / denominator)
  unfold round
  dsimp only
  rw [Nat.div_div_eq_div_mul] at low_grid high_grid low_even high_even apart
  generalize spacing (numerator / denominator) = gap at *
  -- the quotient on the grid of this spacing, with its remainder
  have split := Nat.div_add_mod numerator (denominator * gap)
  have less := Nat.mod_lt numerator (Nat.mul_pos positive step)
  unfold nearestEven
  dsimp only
  generalize numerator / (denominator * gap) = point at *
  generalize numerator % (denominator * gap) = excess at *
  have divisor : (0 : ℚ) < denominator := by exact_mod_cast positive
  have less' : (excess : ℚ) < denominator * gap := by exact_mod_cast less
  have down := quotient_sub_low positive split
  have up := high_sub_quotient positive split
  have below : ((point * gap : Nat) : ℚ) ≤ numerator / denominator := by
    rw [← sub_nonneg, down]
    exact div_nonneg (Nat.cast_nonneg _) divisor.le
  have above : (numerator : ℚ) / denominator < ((point + 1) * gap : Nat) := by
    rw [← sub_pos, up]
    exact div_pos (sub_pos.2 less') divisor
  split_ifs with nearer further
  · have nearer' : 2 * (excess : ℚ) < denominator * gap := by exact_mod_cast nearer
    have closer : (excess : ℚ) / denominator < (denominator * gap - excess) / denominator :=
      div_lt_div_of_pos_right (by linarith) divisor
    rw [← down, ← up] at closer
    exact nearest_low apart low_grid below closer.le fun same => absurd same closer.ne
  · have further' : (denominator * gap : ℚ) < 2 * excess := by exact_mod_cast further
    have closer : (denominator * gap - excess) / denominator < (excess : ℚ) / denominator :=
      div_lt_div_of_pos_right (by linarith) divisor
    rw [← down, ← up] at closer
    exact nearest_high apart high_grid above closer.le fun same => absurd same closer.ne'
  · have half : 2 * (excess : ℚ) = denominator * gap := by
      exact_mod_cast Nat.le_antisymm (Nat.not_lt.1 further) (Nat.not_lt.1 nearer)
    have equal : (excess : ℚ) / denominator = (denominator * gap - excess) / denominator := by
      rw [← half]
      ring
    rw [← down, ← up] at equal
    rcases Nat.mod_two_eq_zero_or_one point with even | odd
    · rw [even, Nat.add_zero]
      exact nearest_low apart low_grid below equal.le fun _ => low_even.2 (Nat.even_iff.2 even)
    · rw [odd]
      refine nearest_high apart high_grid above equal.ge fun _ => high_even.2 ?_
      rw [Nat.even_add_one, Nat.not_even_iff_odd, Nat.odd_iff]
      exact odd

theorem Nearest.not_lt {quantity : ℚ} {units other : Nat} (nearest : Nearest quantity units)
    (nearest' : Nearest quantity other) : ¬units < other := by
  intro less
  have same : |quantity - units| = |quantity - other| :=
    le_antisymm (nearest.near other nearest'.grid) (nearest'.near units nearest.grid)
  have less' : (units : ℚ) < other := by exact_mod_cast less
  have middle : quantity - units = -(quantity - other) := by
    rcases abs_eq_abs.1 same with equal | opposite
    · linarith
    · exact opposite
  have apart := le_or_le_of_onGrid units nearest'.grid
  have low : units / spacing units * spacing units = units := Nat.div_mul_cancel nearest.grid
  have high_grid := onGrid_high units
  have high_even := even_high units
  have high : (units / spacing units + 1) * spacing units = units + spacing units := by
    rw [Nat.add_mul, low, Nat.one_mul]
  rw [low, high] at apart
  rw [high] at high_grid high_even
  have step := spacing_pos units
  have next : units + spacing units ≤ other := by omega
  -- a point between the two would be nearer than either
  have neighbour : units + spacing units = other := by
    by_contra differs
    have between : ((units + spacing units : Nat) : ℚ) < other := by
      exact_mod_cast lt_of_le_of_ne next differs
    have behind : (units : ℚ) < (units + spacing units : Nat) := by
      exact_mod_cast Nat.lt_add_of_pos_right step
    have near := nearest.near _ high_grid
    have here : |quantity - units| = quantity - units := abs_of_nonneg (by linarith)
    rw [here] at near
    rcases le_abs.1 near with right | left <;> linarith
  have even := nearest.even other nearest'.grid less.ne' same
  have even' := nearest'.even units nearest.grid less.ne same.symm
  rw [← neighbour, high_even, Nat.even_add_one] at even'
  exact even' even

theorem Nearest.unique {quantity : ℚ} {units other : Nat} (nearest : Nearest quantity units)
    (nearest' : Nearest quantity other) : units = other :=
  Nat.le_antisymm (Nat.not_lt.1 (nearest'.not_lt nearest)) (Nat.not_lt.1 (nearest.not_lt nearest'))

end Magnitude

def Decimal.value (d : Decimal) : ℚ := d.digits * (10 : ℚ) ^ d.exponent

namespace Number

/-- The number nearest to a quantity that is not negative. It is infinite where the
nearest point of the unbounded grid is past the largest size. -/
inductive Nearest (quantity : ℚ) : Number → Prop
  | finite {m : Magnitude} (nearest : Magnitude.Nearest (quantity * Magnitude.one) m.units) :
      Nearest quantity (.finite false m)
  | infinite {units : Nat} (nearest : Magnitude.Nearest (quantity * Magnitude.one) units)
      (large : Magnitude.limit ≤ units) : Nearest quantity (.infinite false)

private theorem nearest_ofUnits {quantity : ℚ} {numerator denominator : Nat} (positive : 0 < denominator)
    (same : quantity * Magnitude.one = numerator / denominator) :
    Nearest quantity (ofUnits false numerator denominator) := by
  have nearest := Magnitude.nearest_round numerator positive
  rw [← same] at nearest
  unfold ofUnits Magnitude.nearest?
  by_cases small : Magnitude.round numerator denominator < Magnitude.limit
  · rw [dif_pos small]
    exact .finite nearest
  · rw [dif_neg small]
    exact .infinite nearest (Nat.not_lt.1 small)

theorem Nearest.unique {quantity : ℚ} {n n' : Number} (nearest : Nearest quantity n)
    (nearest' : Nearest quantity n') : n = n' := by
  cases nearest with
  | @finite m nearest =>
    cases nearest' with
    | finite nearest' => rw [Magnitude.ext_units (nearest.unique nearest')]
    | infinite nearest' large =>
      rw [← nearest.unique nearest'] at large
      exact absurd m.below (Nat.not_lt.2 large)
  | infinite nearest large =>
    cases nearest' with
    | @finite m nearest' =>
      rw [nearest.unique nearest'] at large
      exact absurd m.below (Nat.not_lt.2 large)
    | infinite => rfl

theorem nearest_ofDecimal (d : Decimal) : Nearest d.value (ofDecimal false d) := by
  obtain ⟨digits, exponent⟩ := d
  have power (places : Nat) : ((Nat.pow 10 places : Nat) : ℚ) = 10 ^ places :=
    Nat.cast_pow 10 places
  unfold ofDecimal Decimal.value
  dsimp only
  split
  · rename_i large
    obtain ⟨places, rfl⟩ := Int.eq_ofNat_of_zero_le large
    refine nearest_ofUnits Nat.one_pos ?_
    rw [Int.natAbs_natCast, zpow_natCast, Nat.cast_one, div_one, Nat.cast_mul, Nat.cast_mul, power]
  · rename_i small
    obtain ⟨places, rfl⟩ : ∃ places : Nat, exponent = -(places : Int) :=
      ⟨exponent.natAbs, by omega⟩
    refine nearest_ofUnits (Nat.pow_pos (by decide)) ?_
    rw [Int.natAbs_neg, Int.natAbs_natCast, zpow_neg, zpow_natCast, power, Nat.cast_mul]
    ring

def numeralValue (whole fraction : List Char) : ℚ :=
  (Nat.ofDigitChars 10 (whole ++ fraction) 0 : ℚ) / (10 : ℚ) ^ fraction.length

theorem nearest_ofNumeral (whole fraction : List Char) :
    Nearest (numeralValue whole fraction) (ofNumeral whole fraction) := by
  have nearest := nearest_ofDecimal
    ⟨Nat.ofDigitChars 10 (whole ++ fraction) 0, -(fraction.length : Int)⟩
  unfold Decimal.value at nearest
  rwa [zpow_neg, zpow_natCast, ← div_eq_mul_inv] at nearest

end Number

end Scriptlet
