import Scriptlet.Number.Notation
import Scriptlet.Proofs.Token.Piece

/-! Literal forms read back. The value of a decimal does not depend on how many
zeros stand at its end, the shortest decimal of a size is chosen among those
that read back, and the positional form spells a decimal digit by digit. So the
literal form of a number that a numeral denotes is a numeral that denotes it. -/
namespace Scriptlet

namespace Magnitude

private theorem nearestEven_scale {factor : Nat} (positive : 0 < factor) (numerator denominator : Nat) :
    nearestEven (factor * numerator) (factor * denominator) =
      nearestEven numerator denominator := by
  unfold nearestEven
  have twice : 2 * (factor * (numerator % denominator)) =
      factor * (2 * (numerator % denominator)) := Nat.mul_left_comm 2 factor _
  simp only [Nat.mul_div_mul_left _ _ positive, Nat.mul_mod_mul_left, twice,
    Nat.mul_lt_mul_left positive]

private theorem round_scale {factor : Nat} (positive : 0 < factor) (numerator denominator : Nat) :
    round (factor * numerator) (factor * denominator) = round numerator denominator := by
  unfold round
  simp only [Nat.mul_div_mul_left _ _ positive, Nat.mul_assoc, nearestEven_scale positive]

private theorem nearest?_scale {factor : Nat} (positive : 0 < factor) (numerator denominator : Nat) :
    nearest? (factor * numerator) (factor * denominator) = nearest? numerator denominator := by
  unfold nearest?
  simp only [round_scale positive]

end Magnitude

namespace Number

private theorem ofUnits_scale {factor : Nat} (positive : 0 < factor) (negative : Bool)
    (numerator denominator : Nat) :
    ofUnits negative (factor * numerator) (factor * denominator) =
      ofUnits negative numerator denominator := by
  unfold ofUnits
  rw [Magnitude.nearest?_scale positive]

theorem ofDecimal_shift (negative : Bool) (digits : Nat) (exponent : Int) :
    ofDecimal negative ⟨10 * digits, exponent⟩ = ofDecimal negative ⟨digits, exponent + 1⟩ := by
  unfold ofDecimal
  dsimp only
  by_cases whole : 0 ≤ exponent
  · obtain ⟨places, rfl⟩ := Int.eq_ofNat_of_zero_le whole
    rw [if_pos whole, if_pos (by omega)]
    have power : Nat.pow 10 ((places : Int) + 1).natAbs =
        10 * Nat.pow 10 (places : Int).natAbs := by
      rw [show ((places : Int) + 1).natAbs = places + 1 from rfl]
      exact Nat.pow_succ'
    rw [power, Nat.mul_comm 10 digits, Nat.mul_assoc digits]
  · obtain ⟨places, rfl⟩ : ∃ places : Nat, exponent = -((places : Int) + 1) :=
      ⟨(-exponent - 1).toNat, by omega⟩
    -- a factor of ten on both sides cancels
    have power : Nat.pow 10 (-((places : Int) + 1)).natAbs = 10 * Nat.pow 10 places := by
      rw [show (-((places : Int) + 1)).natAbs = places + 1 by omega]
      exact Nat.pow_succ'
    rw [if_neg whole, power, Nat.mul_assoc, ofUnits_scale (by decide)]
    cases places with
    | zero =>
      rw [if_pos (by omega)]
      simp
    | succ places =>
      have size : (-(((places + 1 : Nat) : Int) + 1) + 1).natAbs = places + 1 := by omega
      rw [if_neg (by omega), size]

theorem ofDecimal_zeros (negative : Bool) (digits places : Nat) (exponent : Int) :
    ofDecimal negative ⟨Nat.pow 10 places * digits, exponent⟩ =
      ofDecimal negative ⟨digits, exponent + places⟩ := by
  induction places generalizing exponent with
  | zero =>
    have power : Nat.pow 10 0 = 1 := rfl
    rw [power, Nat.one_mul, Int.natCast_zero, Int.add_zero]
  | succ places ih =>
    have power : Nat.pow 10 (places + 1) = 10 * Nat.pow 10 places := Nat.pow_succ'
    rw [power, Nat.mul_assoc, ofDecimal_shift, ih, Int.natCast_succ, Int.add_assoc, Int.add_comm 1]

end Number

namespace Decimal

private theorem ofDecimal_trimmed (negative : Bool) (digits : Nat) (exponent : Int) :
    Number.ofDecimal negative (trimmed digits exponent) =
      Number.ofDecimal negative ⟨digits, exponent⟩ := by
  fun_induction trimmed digits exponent with
  | case1 digits exponent zero ih =>
    rw [ih, ← Number.ofDecimal_shift]
    congr 2
    omega
  | case2 => rfl

private theorem readsBack_neighbour? {m : Magnitude} {exponent : Int} {d : Decimal}
    (found : neighbour? m exponent = some d) : readsBack m d = true := by
  unfold neighbour? at found
  dsimp only at found
  split at found
  · rename_i lower upper
    split at found
    · cases found
      exact lower
    · cases found
      exact upper
  · rename_i lower _
    cases found
    exact lower
  · rename_i upper
    cases found
    exact upper
  · cases found

private theorem ofUnits_places (m : Magnitude) (places : Nat) :
    Number.ofUnits false (m.units * Nat.pow 5 places * Nat.pow 2 places) (Nat.pow 10 places) =
      .finite false m := by
  have power : Nat.pow 10 places = Nat.pow 5 places * Nat.pow 2 places := Nat.mul_pow 5 2 places
  rw [Nat.mul_assoc, ← power]
  exact Number.ofUnits_mul false m (Nat.pow_pos (by decide))

private theorem ofDecimal_exact (m : Magnitude) : Number.ofDecimal false (exact m) = .finite false m := by
  have read := ofUnits_places m Magnitude.fractionBits
  unfold exact Number.ofDecimal Magnitude.one
  dsimp only
  rw [if_neg (by decide), Int.natAbs_neg, Int.natAbs_natCast]
  generalize Magnitude.fractionBits = places at read ⊢
  exact read

theorem ofDecimal_shortest {m : Magnitude} (nonzero : m.units ≠ 0) :
    Number.ofDecimal false (shortest m) = .finite false m := by
  unfold shortest
  rw [if_neg nonzero]
  dsimp only
  split
  · rename_i d found
    obtain ⟨count, _, near⟩ := List.exists_of_findSome?_eq_some found
    rw [ofDecimal_trimmed]
    exact beq_iff_eq.1 (readsBack_neighbour? near)
  · exact ofDecimal_exact m

end Decimal

open Piece

def Number.Spells (text : List Char) (n : Number) : Prop :=
  ∃ whole fraction, text = (numeral whole fraction).text ∧ (numeral whole fraction).WellFormed ∧
    Number.ofNumeral whole fraction = n

theorem digits_toDigits (n : Nat) : ∀ c ∈ Nat.toDigits 10 n, c.isDigit = true :=
  fun _ member => Nat.isDigit_of_mem_toDigits (by decide) (by decide) member

namespace Number

private theorem spells_whole (text : List Char) (some_digit : text ≠ [])
    (digits : ∀ c ∈ text, c.isDigit = true) :
    Spells text (ofDecimal false ⟨Nat.ofDigitChars 10 text 0, 0⟩) := by
  refine ⟨text, [], rfl, ⟨some_digit, digits, nofun⟩, ?_⟩
  unfold ofNumeral
  rw [List.append_nil]
  rfl

theorem spells_point (whole fraction : List Char) (some_digit : whole ≠ [])
    (some_place : fraction ≠ [])
    (digits : ∀ c ∈ whole, c.isDigit = true) (places : ∀ c ∈ fraction, c.isDigit = true) :
    Spells (whole ++ '.' :: fraction)
      (ofDecimal false ⟨Nat.ofDigitChars 10 (whole ++ fraction) 0, -(fraction.length : Int)⟩) := by
  refine ⟨whole, fraction, ?_, ⟨some_digit, digits, places⟩, rfl⟩
  cases fraction with
  | nil => exact absurd rfl some_place
  | cons d fraction => rfl

theorem digits_zeros (places : Nat) : ∀ c ∈ List.replicate places '0', c.isDigit = true := by
  intro c member
  rw [List.eq_of_mem_replicate member]
  rfl

private theorem spells_extended (digits places : Nat) :
    Spells (Nat.toDigits 10 digits ++ List.replicate places '0')
      (ofDecimal false ⟨digits, places⟩) := by
  have spelled := spells_whole (Nat.toDigits 10 digits ++ List.replicate places '0')
    (fun empty => Nat.toDigits_ne_nil (List.append_eq_nil_iff.1 empty).1)
    (List.forall_mem_append.2 ⟨digits_toDigits digits, digits_zeros places⟩)
  rw [Nat.ofDigitChars_append, Nat.ofDigitChars_ten_toDigits,
    Nat.ofDigitChars_replicate_zero] at spelled
  have counted := ofDecimal_zeros false digits places 0
  rw [Int.zero_add] at counted
  rw [← counted]
  exact spelled

private theorem spells_split {digits places : Nat} (some_place : 0 < places)
    (inside : places < (Nat.toDigits 10 digits).length) :
    Spells ((Nat.toDigits 10 digits).take ((Nat.toDigits 10 digits).length - places) ++
        '.' :: (Nat.toDigits 10 digits).drop ((Nat.toDigits 10 digits).length - places))
      (ofDecimal false ⟨digits, -places⟩) := by
  have shown := digits_toDigits digits
  have value := @Nat.ofDigitChars_ten_toDigits digits
  generalize Nat.toDigits 10 digits = text at inside shown value ⊢
  have length : (text.drop (text.length - places)).length = places := by
    rw [List.length_drop]
    omega
  have spelled := spells_point (text.take (text.length - places))
    (text.drop (text.length - places))
    (List.ne_nil_of_length_pos (by rw [List.length_take]; omega))
    (List.ne_nil_of_length_pos (by rw [length]; exact some_place))
    (fun c member => shown c (List.mem_of_mem_take member))
    (fun c member => shown c (List.mem_of_mem_drop member))
  rwa [List.take_append_drop, value, length] at spelled

private theorem spells_padded {digits places : Nat}
    (outside : (Nat.toDigits 10 digits).length ≤ places) :
    Spells ('0' :: '.' :: (List.replicate (places - (Nat.toDigits 10 digits).length) '0' ++
        Nat.toDigits 10 digits))
      (ofDecimal false ⟨digits, -places⟩) := by
  have shown := digits_toDigits digits
  have value := @Nat.ofDigitChars_ten_toDigits digits
  have some_digit : Nat.toDigits 10 digits ≠ [] := Nat.toDigits_ne_nil
  generalize Nat.toDigits 10 digits = text at outside shown value some_digit ⊢
  have length : (List.replicate (places - text.length) '0' ++ text).length = places := by
    rw [List.length_append, List.length_replicate]
    omega
  have padded : Nat.ofDigitChars 10 (['0'] ++
      (List.replicate (places - text.length) '0' ++ text)) 0 = digits := by
    rw [List.singleton_append, Nat.ofDigitChars_cons, Nat.ofDigitChars_append,
      Nat.ofDigitChars_replicate_zero]
    exact value
  have spelled := spells_point ['0'] (List.replicate (places - text.length) '0' ++ text)
    (List.cons_ne_nil _ _) (fun empty => some_digit (List.append_eq_nil_iff.1 empty).2)
    (digits_zeros 1) (List.forall_mem_append.2 ⟨digits_zeros _, shown⟩)
  rwa [padded, length] at spelled

theorem spells_positional (d : Decimal) : Spells d.positional.toList (ofDecimal false d) := by
  obtain ⟨digits, exponent⟩ := d
  unfold Decimal.positional
  dsimp only
  by_cases whole : 0 ≤ exponent
  · rw [if_pos whole, String.toList_ofList]
    have spelled := spells_extended digits exponent.natAbs
    rwa [Int.natAbs_of_nonneg whole] at spelled
  · rw [if_neg whole]
    have places : -(exponent.natAbs : Int) = exponent := by omega
    split
    · rename_i inside
      have spelled := spells_split (by omega) inside
      rwa [places, ← String.toList_ofList (l := _ ++ _)] at spelled
    · rename_i outside
      have spelled := spells_padded (Nat.not_lt.1 outside)
      rwa [places, ← String.toList_ofList (l := _ :: _)] at spelled

private theorem ofDecimal_whole {m : Magnitude} (whole : m.units % Magnitude.one = 0) :
    ofDecimal false ⟨m.units / Magnitude.one, 0⟩ = .finite false m := by
  have units : m.units / Magnitude.one * Magnitude.one = m.units :=
    Nat.div_mul_cancel (Nat.dvd_of_mod_eq_zero whole)
  have read := ofUnits_mul false m Nat.one_pos
  have power : Nat.pow 10 (0 : Int).natAbs = 1 := rfl
  unfold ofDecimal
  rw [Nat.mul_one] at read
  rw [if_pos (Int.le_refl 0), power, Nat.mul_one, units, read]

/-- The sign that a finite number shows: zero shows none. -/
def shownSign (negative : Bool) (m : Magnitude) : Bool := negative && m.units != 0

theorem shownSign_of_ne_zero (negative : Bool) {m : Magnitude} (nonzero : m.units ≠ 0) :
    shownSign negative m = negative := by
  unfold shownSign
  rw [bne_iff_ne.2 nonzero, Bool.and_true]

section Forms
variable (negative : Bool) {m : Magnitude}

private theorem whole?_eq_some (whole : m.units % Magnitude.one = 0) :
    whole? (.finite negative m) = some (if negative then -((m.units / Magnitude.one : Nat) : Int)
      else (m.units / Magnitude.one : Nat)) :=
  if_pos whole

private theorem whole?_eq_none (part : m.units % Magnitude.one ≠ 0) :
    whole? (.finite negative m) = none :=
  if_neg part

theorem plain_whole (whole : m.units % Magnitude.one = 0) :
    plain (.finite negative m) =
      minus (shownSign negative m) ++ Nat.repr (m.units / Magnitude.one) := by
  have split := Nat.div_mul_cancel (Nat.dvd_of_mod_eq_zero whole)
  unfold plain shownSign
  rw [whole?_eq_some negative whole]
  dsimp only
  generalize m.units / Magnitude.one = size at split ⊢
  have some_size : m.units ≠ 0 ↔ 0 < size := by
    rw [← split, Nat.mul_ne_zero_iff, and_iff_left Magnitude.one_pos.ne', Nat.pos_iff_ne_zero]
  cases negative with
  | false =>
    have positive : ¬(size : Int) < 0 := Int.not_lt.2 (Int.natCast_nonneg size)
    rw [if_neg Bool.false_ne_true, decide_eq_false positive, Int.natAbs_natCast, Bool.false_and]
  | true =>
    have sign : decide (-(size : Int) < 0) = (m.units != 0) := by
      rw [Bool.eq_iff_iff, decide_eq_true_iff, bne_iff_ne, some_size]
      omega
    rw [if_pos rfl, sign, Int.natAbs_neg, Int.natAbs_natCast, Bool.true_and]

theorem plain_fraction (part : m.units % Magnitude.one ≠ 0) :
    plain (.finite negative m) = minus negative ++ (Decimal.shortest m).compact := by
  unfold plain
  rw [whole?_eq_none negative part]
  rfl

theorem literal_whole (whole : m.units % Magnitude.one = 0) :
    literal (.finite negative m) = plain (.finite negative m) := by
  unfold literal
  rw [whole?_eq_some negative whole]

theorem literal_fraction (part : m.units % Magnitude.one ≠ 0) :
    literal (.finite negative m) = minus negative ++ (Decimal.shortest m).positional := by
  unfold literal
  rw [whole?_eq_none negative part]

theorem units_ne_zero (part : m.units % Magnitude.one ≠ 0) : m.units ≠ 0 := by
  intro zero
  rw [zero] at part
  exact part (Nat.zero_mod _)

end Forms

private theorem spells_repr {m : Magnitude} (whole : m.units % Magnitude.one = 0) :
    Spells (Nat.repr (m.units / Magnitude.one)).toList (.finite false m) := by
  have spelled := spells_whole (Nat.toDigits 10 (m.units / Magnitude.one))
    Nat.toDigits_ne_nil (digits_toDigits _)
  rwa [Nat.ofDigitChars_ten_toDigits, ofDecimal_whole whole, ← Nat.toList_repr] at spelled

theorem spells_literal_finite (m : Magnitude) :
    Spells (literal (.finite false m)).toList (.finite false m) := by
  by_cases whole : m.units % Magnitude.one = 0
  · rw [literal_whole false whole, plain_whole false whole]
    show Spells ("" ++ _).toList _
    rw [String.empty_append]
    exact spells_repr whole
  · have spelled := spells_positional (Decimal.shortest m)
    rw [Decimal.ofDecimal_shortest (units_ne_zero whole)] at spelled
    rw [literal_fraction false whole]
    show Spells ("" ++ _).toList _
    rwa [String.empty_append]

/-- A number past the largest size reads back as infinity. -/
theorem spells_literal_infinite :
    Spells (literal (.infinite false)).toList (.infinite false) := by
  refine ⟨'1' :: List.replicate 309 '0', [], ?_, ⟨List.cons_ne_nil _ _, ?_, nofun⟩, ?_⟩
  · unfold literal
    rw [String.toList_ofList]
    rfl
  · exact List.forall_mem_cons.2 ⟨rfl, digits_zeros 309⟩
  · decide +kernel

theorem ofNumeral_cases (whole fraction : List Char) :
    (∃ m, ofNumeral whole fraction = .finite false m) ∨
      ofNumeral whole fraction = .infinite false := by
  have units : ∀ numerator denominator,
      (∃ m, ofUnits false numerator denominator = .finite false m) ∨
      ofUnits false numerator denominator = .infinite false := by
    intro numerator denominator
    unfold ofUnits
    cases Magnitude.nearest? numerator denominator with
    | none => exact .inr rfl
    | some m => exact .inl ⟨m, rfl⟩
  unfold ofNumeral ofDecimal
  split
  · exact units _ _
  · exact units _ _

theorem spells_literal (whole fraction : List Char) :
    Spells (literal (ofNumeral whole fraction)).toList (ofNumeral whole fraction) := by
  rcases ofNumeral_cases whole fraction with ⟨m, same⟩ | same
  · rw [same]
    exact spells_literal_finite m
  · rw [same]
    exact spells_literal_infinite

end Number

end Scriptlet
