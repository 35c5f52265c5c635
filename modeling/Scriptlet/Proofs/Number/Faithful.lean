import Scriptlet.Proofs.Number.Literal
import Scriptlet.Proofs.Number.Nearest
import Scriptlet.Proofs.Token.Lines

/-! Texts of numbers, read as decimals. A decimal text has one value, and denotes the number
that is nearest to it. Both the plain and the literal form of a number denote that number and
no other, but that zero has no sign, so the plain form tells all numbers apart that are not
the same. The literal form of a number without a sign is a numeral of the language. -/
namespace Scriptlet

namespace Number
open Piece

structure Digits (text : List Char) : Prop where
  some_digit : text ≠ []
  inside : ∀ c ∈ text, c.isDigit = true

/-- A numeral of the language: digits, perhaps with a point that has digits on both sides. -/
inductive Numeral : List Char → List Char → List Char → Prop
  | whole {digits} (here : Digits digits) : Numeral digits [] digits
  | decimal {digits places} (here : Digits digits) (behind : Digits places) :
      Numeral digits places (digits ++ '.' :: places)

/-- A power of ten at the end of a decimal text, or nothing. -/
inductive Power : List Char → ℚ → Prop
  | none : Power [] 1
  | up {digits} (size : Digits digits) :
      Power ('e' :: '+' :: digits) (10 ^ Nat.ofDigitChars 10 digits 0)
  | down {digits} (size : Digits digits) :
      Power ('e' :: '-' :: digits) (10 ^ Nat.ofDigitChars 10 digits 0)⁻¹

/-- A decimal text without a sign, and its value. -/
inductive Written : List Char → ℚ → Prop
  | intro {digits places text tail factor} (shape : Numeral digits places text)
      (power : Power tail factor) : Written (text ++ tail) (numeralValue digits places * factor)

def Reads (text : List Char) (n : Number) : Prop :=
  ∃ quantity, Written text quantity ∧ Nearest quantity n

/-- What a decimal text denotes, perhaps with a minus sign in front. -/
inductive Denotes : List Char → Number → Prop
  | unsigned {text n} (reads : Reads text n) : Denotes text n
  | signed {text n} (reads : Reads text n) : Denotes ('-' :: text) n.neg

inductive WholeText : List Char → Prop
  | unsigned {digits} (size : Digits digits) : WholeText digits
  | signed {digits} (size : Digits digits) : WholeText ('-' :: digits)

/-- The literal form is a numeral, and the scanner reads the number off it. -/
def Renders (n : Number) : Prop :=
  (∃ digits places, Numeral digits places n.literal.toList) ∧
    Token.scan n.literal = [⟨.number, n.literal, 1, .number n⟩, .eof 1]

private theorem numeral_iff {digits places text : List Char} : Numeral digits places text ↔
    text = (numeral digits places).text ∧ (numeral digits places).WellFormed := by
  constructor
  · intro shape
    cases shape with
    | whole here => exact ⟨rfl, here.some_digit, here.inside, List.forall_mem_nil _⟩
    | decimal here behind =>
      refine ⟨?_, here.some_digit, here.inside, behind.inside⟩
      cases places with
      | nil => exact absurd rfl behind.some_digit
      | cons d places => rfl
  · rintro ⟨rfl, some_digit, inside, behind⟩
    cases places with
    | nil => exact .whole ⟨some_digit, inside⟩
    | cons d places => exact .decimal ⟨some_digit, inside⟩ ⟨List.cons_ne_nil _ _, behind⟩

section Reading
variable {text tail : List Char} {quantity factor : ℚ} {n n' : Number}

theorem Power.fits (power : Power tail factor) (whole fraction : List Char) :
    (numeral whole fraction).Fits tail := by
  cases power with
  | none =>
    refine ⟨fun c head => ?_, fun _ d more same => ?_⟩
    · cases head
    · cases same
  | up | down =>
    refine ⟨fun c head => ?_, fun _ d more same => ?_⟩
    · cases head
      rfl
    · cases same

theorem Power.unique {factor' : ℚ} (power : Power tail factor) (power' : Power tail factor') :
    factor = factor' := by
  cases power <;> cases power' <;> rfl

theorem Written.unique {quantity' : ℚ} (written : Written text quantity)
    (written' : Written text quantity') : quantity = quantity' := by
  cases written with
  | @intro digits places numeral tail factor shape power =>
  generalize same : numeral ++ tail = text at written'
  cases written' with
  | @intro digits' places' numeral' tail' factor' shape' power' =>
  obtain ⟨rfl, formed⟩ := numeral_iff.1 shape
  obtain ⟨rfl, formed'⟩ := numeral_iff.1 shape'
  -- the text is cut behind its numeral, so both have the same one
  have pieces := congrArg cut same
  rw [cut_text formed (power.fits _ _), cut_text formed' (power'.fits _ _)] at pieces
  obtain ⟨rfl, rfl⟩ := numeral.inj (List.cons.inj pieces).1
  obtain rfl := List.append_cancel_left same
  rw [power.unique power']

theorem Written.digit (written : Written text quantity) :
    ∃ c more, text = c :: more ∧ c.isDigit = true := by
  cases written with
  | @intro digits places numeral tail factor shape power =>
  obtain ⟨rfl, some_digit, inside, -⟩ := numeral_iff.1 shape
  cases digits with
  | nil => exact absurd rfl some_digit
  | cons c digits =>
    refine ⟨c, ?_⟩
    cases places with
    | nil => exact ⟨_, rfl, inside c List.mem_cons_self⟩
    | cons d places => exact ⟨_, rfl, inside c List.mem_cons_self⟩

theorem Numeral.inside {digits places : List Char} (shape : Numeral digits places text) :
    ∀ c ∈ text, c.isDigit = true ∨ c = '.' := by
  cases shape with
  | whole here => exact fun c member => .inl (here.inside c member)
  | decimal here behind =>
    intro c member
    rcases List.mem_append.1 member with before | after
    · exact .inl (here.inside c before)
    · rcases List.mem_cons.1 after with point | after
      · exact .inr point
      · exact .inl (behind.inside c after)

theorem Written.inside (written : Written text quantity) :
    ∀ c ∈ text, c.isDigit = true ∨ c ∈ ['.', 'e', '+', '-'] := by
  cases written with
  | @intro digits places numeral tail factor shape power =>
  intro c member
  rcases List.mem_append.1 member with before | after
  · rcases shape.inside c before with digit | rfl
    · exact .inl digit
    · exact .inr (by decide)
  · cases power with
    | none => cases after
    | up size | down size =>
      rcases List.mem_cons.1 after with rfl | after
      · exact .inr (by decide)
      · rcases List.mem_cons.1 after with rfl | after
        · exact .inr (by decide)
        · exact .inl (size.inside c after)

theorem Reads.unique (reads : Reads text n) (reads' : Reads text n') : n = n' := by
  obtain ⟨quantity, written, nearest⟩ := reads
  obtain ⟨quantity', written', nearest'⟩ := reads'
  rw [written'.unique written] at nearest'
  exact nearest.unique nearest'

private theorem not_reads_minus : ¬Reads ('-' :: text) n := by
  rintro ⟨quantity, written, -⟩
  obtain ⟨c, more, starts, digit⟩ := written.digit
  cases starts
  exact absurd digit (by decide)

theorem Denotes.unique (denotes : Denotes text n) (denotes' : Denotes text n') : n = n' := by
  cases denotes with
  | unsigned reads =>
    cases denotes' with
    | unsigned reads' => exact reads.unique reads'
    | signed reads' => exact absurd reads not_reads_minus
  | signed reads =>
    cases denotes' with
    | unsigned reads' => exact absurd reads' not_reads_minus
    | signed reads' => rw [reads.unique reads']

theorem Denotes.iff_eq (denotes : Denotes text n) (n' : Number) : Denotes text n' ↔ n' = n := by
  constructor
  · intro denotes'
    exact denotes'.unique denotes
  · rintro rfl
    exact denotes

theorem Spells.reads (spells : Spells text n) : Reads text n := by
  obtain ⟨whole, fraction, same, formed, rfl⟩ := spells
  have written := Written.intro (numeral_iff.2 ⟨same, formed⟩) .none
  rw [List.append_nil, mul_one] at written
  exact ⟨_, written, nearest_ofNumeral whole fraction⟩

theorem Reads.denotes {m : Magnitude} (reads : Reads text (.finite false m)) (negative : Bool) :
    Denotes ((minus negative).toList ++ text) (.finite negative m) := by
  cases negative with
  | false => exact .unsigned reads
  | true => exact .signed reads

end Reading

section Compact

private theorem power_exponent (exponent : Int) (padding : Nat) :
    Power ('e' :: (if exponent < 0 then '-' else '+') ::
        (List.replicate padding '0' ++ Nat.toDigits 10 exponent.natAbs)) (10 ^ exponent) := by
  have value : Nat.ofDigitChars 10
      (List.replicate padding '0' ++ Nat.toDigits 10 exponent.natAbs) 0 = exponent.natAbs := by
    rw [Nat.ofDigitChars_append, Nat.ofDigitChars_replicate_zero]
    exact Nat.ofDigitChars_ten_toDigits
  have size : Digits (List.replicate padding '0' ++ Nat.toDigits 10 exponent.natAbs) :=
    ⟨fun empty => Nat.toDigits_ne_nil (List.append_eq_nil_iff.1 empty).2,
      List.forall_mem_append.2 ⟨digits_zeros padding, digits_toDigits exponent.natAbs⟩⟩
  split
  · rename_i small
    have power := Power.down size
    rw [value, ← zpow_natCast, ← zpow_neg] at power
    rwa [show -((exponent.natAbs : Nat) : Int) = exponent by omega] at power
  · rename_i large
    have power := Power.up size
    rw [value, ← zpow_natCast] at power
    rwa [show ((exponent.natAbs : Nat) : Int) = exponent by omega] at power

private theorem value_scientific {d : Decimal} {digit : Char} {more : List Char}
    (digits : Nat.toDigits 10 d.digits = digit :: more) :
    numeralValue [digit] more * 10 ^ d.leadingExponent = d.value := by
  have ten : (10 : ℚ) ≠ 0 := by norm_num
  have value := @Nat.ofDigitChars_ten_toDigits d.digits
  rw [digits] at value
  unfold numeralValue Decimal.value Decimal.leadingExponent Decimal.countDigits
  rw [digits, List.singleton_append, value, List.length_cons, Nat.cast_succ, ← add_assoc,
    add_sub_cancel_right, zpow_add₀ ten, zpow_natCast]
  field_simp

private theorem reads_scientific (d : Decimal) : Reads d.scientific.toList (ofDecimal false d) := by
  refine ⟨d.value, ?_, nearest_ofDecimal d⟩
  have inside := digits_toDigits d.digits
  have power := power_exponent d.leadingExponent
    (2 - (Nat.toDigits 10 d.leadingExponent.natAbs).length)
  unfold Decimal.scientific
  cases digits : Nat.toDigits 10 d.digits with
  | nil => exact absurd digits Nat.toDigits_ne_nil
  | cons digit more =>
    rw [digits] at inside
    obtain ⟨first, places⟩ := List.forall_mem_cons.1 inside
    have formed : (numeral [digit] more).WellFormed :=
      ⟨List.cons_ne_nil _ _, List.forall_mem_singleton.2 first, places⟩
    have written := Written.intro (numeral_iff.2 ⟨rfl, formed⟩) power
    rw [value_scientific digits] at written
    cases more with
    | nil => rwa [String.toList_ofList]
    | cons next more => rwa [String.toList_ofList]

private theorem spells_pointed {digits places : Nat} :
    Spells (Nat.toDigits 10 digits ++ List.replicate places '0' ++ ['.', '0'])
      (ofDecimal false ⟨digits, places⟩) := by
  have inside := List.forall_mem_append.2 ⟨digits_toDigits digits, digits_zeros places⟩
  have some_digit : Nat.toDigits 10 digits ++ List.replicate places '0' ≠ [] :=
    fun empty => Nat.toDigits_ne_nil (List.append_eq_nil_iff.1 empty).1
  have spelled := spells_point _ ['0'] some_digit (List.cons_ne_nil _ _) inside (digits_zeros 1)
  have zero : Nat.ofDigitChars 10
      (Nat.toDigits 10 digits ++ List.replicate places '0' ++ ['0']) 0 =
        10 * (Nat.pow 10 places * digits) := by
    rw [Nat.ofDigitChars_append, Nat.ofDigitChars_append, Nat.ofDigitChars_ten_toDigits,
      Nat.ofDigitChars_replicate_zero]
    rfl
  rwa [zero, List.length_singleton, ofDecimal_shift, ofDecimal_zeros, Int.natCast_one,
    Int.add_left_neg, Int.zero_add] at spelled

private theorem reads_compact (d : Decimal) : Reads d.compact.toList (ofDecimal false d) := by
  unfold Decimal.compact
  split
  · split
    · rename_i whole
      have spelled := @spells_pointed d.digits d.exponent.natAbs
      rw [Int.natAbs_of_nonneg whole] at spelled
      unfold Decimal.positional
      rw [if_pos whole, String.toList_append, String.toList_ofList]
      exact spelled.reads
    · exact (spells_positional d).reads
  · exact reads_scientific d

private theorem compact_mark (d : Decimal) : '.' ∈ d.compact.toList ∨ 'e' ∈ d.compact.toList := by
  unfold Decimal.compact
  split
  · left
    split
    · rw [String.toList_append]
      exact List.mem_append_right _ (by decide)
    · rename_i part
      unfold Decimal.positional
      rw [if_neg part]
      dsimp only
      split
      · rw [String.toList_ofList]
        exact List.mem_append_right _ List.mem_cons_self
      · rw [String.toList_ofList]
        exact List.mem_cons_of_mem _ List.mem_cons_self
  · right
    unfold Decimal.scientific
    rw [String.toList_ofList]
    exact List.mem_append_right _ List.mem_cons_self

end Compact

section Forms
variable (negative : Bool) (m : Magnitude)

private theorem WholeText.digit_or_minus {text : List Char} (whole_text : WholeText text) :
    ∀ c ∈ text, c.isDigit = true ∨ c = '-' := by
  cases whole_text with
  | unsigned size => exact fun c member => .inl (size.inside c member)
  | signed size =>
    exact List.forall_mem_cons.2 ⟨.inr rfl, fun c member => .inl (size.inside c member)⟩

private theorem wholeText_plain :
    WholeText (plain (.finite negative m)).toList ↔ m.units % Magnitude.one = 0 := by
  constructor
  · intro whole_text
    by_contra part
    rw [plain_fraction negative part, String.toList_append] at whole_text
    have shown := whole_text.digit_or_minus
    rcases compact_mark (Decimal.shortest m) with point | power
    · exact absurd (shown _ (List.mem_append_right _ point)) (by decide)
    · exact absurd (shown _ (List.mem_append_right _ power)) (by decide)
  · intro whole
    have size : Digits (Nat.repr (m.units / Magnitude.one)).toList := by
      rw [Nat.toList_repr]
      exact ⟨Nat.toDigits_ne_nil, digits_toDigits _⟩
    rw [plain_whole negative whole, String.toList_append]
    cases shownSign negative m with
    | false => exact .unsigned size
    | true => exact .signed size

private theorem one_dvd_signed :
    (Magnitude.one : Int) ∣ signed negative m ↔ m.units % Magnitude.one = 0 := by
  rw [← Nat.dvd_iff_mod_eq_zero, ← Int.natCast_dvd_natCast]
  cases negative with
  | false => exact Iff.rfl
  | true => exact Int.dvd_neg

private theorem plain_signed :
    plain (.finite negative m) = minus (shownSign negative m) ++ plain (.finite false m) := by
  by_cases whole : m.units % Magnitude.one = 0
  · rw [plain_whole negative whole, plain_whole false whole]
    rfl
  · rw [plain_fraction negative whole, plain_fraction false whole,
      shownSign_of_ne_zero negative (units_ne_zero whole)]
    rfl

private theorem literal_signed :
    literal (.finite negative m) = minus (shownSign negative m) ++ literal (.finite false m) := by
  by_cases whole : m.units % Magnitude.one = 0
  · rw [literal_whole negative whole, literal_whole false whole, plain_signed]
  · rw [literal_fraction negative whole, literal_fraction false whole,
      shownSign_of_ne_zero negative (units_ne_zero whole)]
    rfl

theorem reads_plain : Reads (plain (.finite false m)).toList (.finite false m) := by
  by_cases whole : m.units % Magnitude.one = 0
  · rw [← literal_whole false whole]
    exact (spells_literal_finite m).reads
  · have reads := reads_compact (Decimal.shortest m)
    rw [Decimal.ofDecimal_shortest (units_ne_zero whole)] at reads
    rw [plain_fraction false whole, String.toList_append]
    exact reads

private theorem denotes_plain :
    Denotes (plain (.finite negative m)).toList (.finite (shownSign negative m) m) := by
  rw [plain_signed, String.toList_append]
  exact (reads_plain m).denotes _

private theorem denotes_literal :
    Denotes (literal (.finite negative m)).toList (.finite (shownSign negative m) m) := by
  rw [literal_signed, String.toList_append]
  exact (spells_literal_finite m).reads.denotes _

end Forms

theorem signed_eq_iff {a b : Bool} {m n : Magnitude} :
    signed a m = signed b n ↔ shownSign a m = shownSign b n ∧ m = n := by
  constructor
  · intro same
    have size : m.units = n.units := by
      have sizes := congrArg Int.natAbs same
      unfold signed at sizes
      split at sizes <;> split at sizes <;> omega
    obtain rfl := Magnitude.ext_units size
    by_cases zero : m.units = 0
    · unfold shownSign
      rw [zero]
      exact ⟨by simp, rfl⟩
    · rw [shownSign_of_ne_zero a zero, shownSign_of_ne_zero b zero]
      refine ⟨?_, rfl⟩
      cases a <;> cases b <;> first | rfl | (simp [signed] at same; omega)
  · rintro ⟨sign, rfl⟩
    by_cases zero : m.units = 0
    · simp [signed, zero]
    · rw [shownSign_of_ne_zero a zero, shownSign_of_ne_zero b zero] at sign
      rw [sign]

/-- Two numbers have one plain form just where they are the same but for the sign of zero. -/
theorem plain_eq_iff {a b : Bool} {m n : Magnitude} :
    plain (.finite a m) = plain (.finite b n) ↔ signed a m = signed b n := by
  rw [signed_eq_iff]
  constructor
  · intro same
    have denotes := denotes_plain a m
    rw [same] at denotes
    exact finite.inj (denotes.unique (denotes_plain b n))
  · rintro ⟨sign, rfl⟩
    rw [plain_signed a, plain_signed b, sign]

private theorem renders_of_spells {n : Number} (spelled : Spells n.literal.toList n) : Renders n := by
  obtain ⟨digits, places, text, formed, value⟩ := spelled
  have shape := numeral_iff.2 ⟨text, formed⟩
  refine ⟨⟨digits, places, shape⟩, ?_⟩
  have pieces := cut_text formed (Power.none.fits digits places)
  rw [List.append_nil, cut_nil, ← text] at pieces
  have line : (numeral digits places).newlines = 0 := by
    unfold newlines
    rw [← text]
    refine List.count_eq_zero.2 fun member => ?_
    exact absurd (shape.inside _ member) (by decide)
  have token : (numeral digits places).token? 1 = some ⟨.number, n.literal, 1, .number n⟩ := by
    have place : (numeral digits places).tokenLine 1 = 1 + (numeral digits places).newlines := rfl
    unfold token?
    rw [place, line, ← text, String.ofList_toList, meaning?, value]
    rfl
  unfold Token.scan
  rw [pieces, Token.ofPieces_cons, Token.ofPieces_nil, token, line]
  rfl

/-- Texts of numbers are faithful. Both forms of a finite number denote that number and no
other, but that zero shows no sign. Two numbers with one plain form are the same, and a plain
form is made of digits only just where the number is whole. The literal form of a number
without a sign, infinity included, is a numeral that is scanned as this number. -/
theorem text_faithful :
    (∀ negative m n, Denotes (plain (.finite negative m)).toList n ↔
      n = .finite (shownSign negative m) m) ∧
    (∀ negative m n, Denotes (literal (.finite negative m)).toList n ↔
      n = .finite (shownSign negative m) m) ∧
    (∀ a m b n, plain (.finite a m) = plain (.finite b n) ↔
      (finite a m).same (.finite b n) = true) ∧
    (∀ negative m, WholeText (plain (.finite negative m)).toList ↔
      (Magnitude.one : Int) ∣ signed negative m) ∧
    (∀ m, Renders (.finite false m)) ∧ Renders (.infinite false) := by
  refine ⟨fun negative m => (denotes_plain negative m).iff_eq,
    fun negative m => (denotes_literal negative m).iff_eq, fun a m b n => ?_,
    fun negative m => ?_, fun m => renders_of_spells (spells_literal_finite m),
    renders_of_spells spells_literal_infinite⟩
  · rw [plain_eq_iff]
    exact beq_iff_eq.symm
  · rw [wholeText_plain, one_dvd_signed]

end Number

end Scriptlet
