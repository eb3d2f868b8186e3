import PgMimic.NumericGroups

/-!
# Numerics in text and in binary

A number of at most 28 digits and zeros behind them passes through Python's decimal as it
is, and every other is rounded. The text of a Decimal shows its sign and its number, so a
number that was rounded is another text, and so is a zero that has lost its sign.
-/

namespace PgMimic.Numeric

open PgMimic.Copy (Text)
open Positional
open Offsets (Stands)

/-! ## Rounding -/

/-- At most 28 digits, and zeros behind them. -/
def Short (n : Nat) : Prop := ∃ c k, n = c * 10 ^ k ∧ c < 10 ^ prec

theorem ten_ne_zero : (10 : ℚ) ≠ 0 := by norm_num

/-- Digits that are cut off are zeros exactly if cutting them is exact. -/
theorem roundHalfEven_exact (n k : Nat) : roundHalfEven n k * 10 ^ k = n ↔ 10 ^ k ∣ n := by
  have place : 0 < 10 ^ k := Nat.pow_pos (by decide)
  have whole := Nat.div_add_mod n (10 ^ k)
  rw [Nat.mul_comm] at whole
  constructor
  · intro same
    exact ⟨_, by rw [Nat.mul_comm, same]⟩
  · intro divides
    have none : n % 10 ^ k = 0 := Nat.mod_eq_zero_of_dvd divides
    simp only [roundHalfEven, none]
    rw [if_neg (by omega)]
    omega

theorem roundHalfEven_of_mul (n k : Nat) : roundHalfEven (n * 10 ^ k) k = n := by
  have same := (roundHalfEven_exact (n * 10 ^ k) k).mpr ⟨n, Nat.mul_comm _ _⟩
  exact Nat.eq_of_mul_eq_mul_right (Nat.pow_pos (by decide)) same

theorem roundHalfEven_le (n k m : Nat) (bound : n < m * 10 ^ k) : roundHalfEven n k ≤ m := by
  have kept : n / 10 ^ k < m := Nat.div_lt_of_lt_mul (by rwa [Nat.mul_comm] at bound)
  simp only [roundHalfEven]
  split_ifs <;> omega

theorem le_roundHalfEven (n k m : Nat) (bound : m * 10 ^ k ≤ n) : m ≤ roundHalfEven n k := by
  have kept : m ≤ n / 10 ^ k := (Nat.le_div_iff_mul_le (Nat.pow_pos (by decide))).mpr bound
  simp only [roundHalfEven]
  split_ifs <;> omega

theorem short_mul_pow (n k : Nat) : Short (n * 10 ^ k) ↔ Short n := by
  constructor
  · rintro ⟨c, j, same, small⟩
    by_cases less : k ≤ j
    · refine ⟨c, j - k, ?_, small⟩
      refine Nat.eq_of_mul_eq_mul_right (Nat.pow_pos (n := k) (show 0 < 10 by decide)) ?_
      rw [same, Nat.mul_assoc, ← pow_add, Nat.sub_add_cancel less]
    · have whole : n * 10 ^ (k - j) = c := by
        refine Nat.eq_of_mul_eq_mul_right (Nat.pow_pos (n := j) (show 0 < 10 by decide)) ?_
        rw [← same, Nat.mul_assoc, ← pow_add, Nat.sub_add_cancel (by omega)]
      have most : n ≤ c := by
        rw [← whole]
        exact Nat.le_mul_of_pos_right n (Nat.pow_pos (by decide))
      exact ⟨n, 0, by rw [pow_zero, Nat.mul_one], by omega⟩
  · rintro ⟨c, j, rfl, small⟩
    exact ⟨c, j + k, by rw [Nat.mul_assoc, pow_add], small⟩

/-- The same number with a lower exponent has zeros behind its digits. -/
theorem coefficient_of_worth {n m : Nat} {x y : Int} (same : (n : ℚ) * 10 ^ x = m * 10 ^ y)
    (lower : x ≤ y) : n = m * 10 ^ (y - x).toNat := by
  have place : (10 : ℚ) ^ y = 10 ^ (y - x).toNat * 10 ^ x := by
    rw [← zpow_natCast, ← zpow_add₀ ten_ne_zero]
    congr 1
    omega
  rw [place, ← mul_assoc] at same
  have cancelled := mul_right_cancel₀ (zpow_ne_zero x ten_ne_zero) same
  exact_mod_cast cancelled

theorem short_of_worth {n m : Nat} {x y : Int} (same : (n : ℚ) * 10 ^ x = m * 10 ^ y) :
    Short n ↔ Short m := by
  rcases Int.le_total x y with lower | lower
  · rw [coefficient_of_worth same lower, short_mul_pow]
  · rw [coefficient_of_worth same.symm lower, short_mul_pow]

namespace Decimal

/-- What `fix` makes of a coefficient that is too long. A carry through all digits moves
the exponent once more. -/
theorem fix_long (d : Decimal) {k : Nat} (long : (digits 10 d.coefficient).length = prec + k)
    (some : 0 < k) :
    ∃ j : Nat, (fix d).exponent = d.exponent + k + j ∧
      (fix d).coefficient * 10 ^ j = roundHalfEven d.coefficient k ∧
      (fix d).coefficient < 10 ^ prec ∧ 0 < (fix d).coefficient ∧
      (fix d).negative = d.negative := by
  have cut : (digits 10 d.coefficient).length - prec = k := by omega
  have high : ¬d.coefficient < 10 ^ (prec + k - 1) := by
    rw [← length_digits_le (by decide) (by rw [prec]; omega)]
    omega
  have low : d.coefficient < 10 ^ (prec + k) := by
    rw [← length_digits_le (by decide) (by rw [prec]; omega)]
    omega
  have most := roundHalfEven_le d.coefficient k (10 ^ prec) (by rwa [← pow_add])
  have least := le_roundHalfEven d.coefficient k (10 ^ (prec - 1)) (by
    rw [← pow_add, show prec - 1 + k = prec + k - 1 by rw [prec]; omega]
    exact Nat.not_lt.mp high)
  simp only [fix, cut]
  rw [if_neg (by omega)]
  by_cases fits : (digits 10 (roundHalfEven d.coefficient k)).length ≤ prec
  · rw [if_pos fits]
    rw [length_digits_le (by decide) (by decide)] at fits
    refine ⟨0, by simp, by simp, fits, ?_, rfl⟩
    exact Nat.lt_of_lt_of_le (by decide) least
  · rw [if_neg fits]
    rw [length_digits_le (by decide) (by decide)] at fits
    have carry : roundHalfEven d.coefficient k = 10 ^ prec := by omega
    rw [carry]
    exact ⟨1, rfl, show 10 ^ prec / 10 * 10 ^ 1 = 10 ^ prec by decide,
      show 10 ^ prec / 10 < 10 ^ prec by decide, show 0 < 10 ^ prec / 10 by decide, rfl⟩

theorem fix_short (d : Decimal) (short : (digits 10 d.coefficient).length ≤ prec) : fix d = d := by
  simp only [fix]
  rw [if_pos short]

theorem short_length {d : Decimal} (short : (digits 10 d.coefficient).length ≤ prec) :
    Short d.coefficient := by
  rw [length_digits_le (by decide) (by decide)] at short
  exact ⟨d.coefficient, 0, by rw [pow_zero, Nat.mul_one], short⟩

/-- A long number is short exactly if what is cut off are zeros. -/
theorem short_long {n k : Nat} (long : (digits 10 n).length = prec + k) (some : 0 < k) :
    Short n ↔ 10 ^ k ∣ n := by
  have high : 10 ^ (prec + k - 1) ≤ n := by
    rw [← Nat.not_lt, ← length_digits_le (by decide) (by rw [prec]; omega)]
    omega
  have low : n < 10 ^ (prec + k) := by
    rw [← length_digits_le (by decide) (by rw [prec]; omega)]
    omega
  constructor
  · rintro ⟨c, j, rfl, small⟩
    have enough : k ≤ j := by
      by_contra less
      have bound : c * 10 ^ j < 10 ^ (prec + j) := by
        rw [pow_add]
        exact Nat.mul_lt_mul_of_pos_right small (Nat.pow_pos (by decide))
      have order : 10 ^ (prec + j) ≤ 10 ^ (prec + k - 1) :=
        Nat.pow_le_pow_right (by decide) (by omega)
      omega
    exact Dvd.dvd.mul_left (pow_dvd_pow 10 enough) c
  · rintro ⟨c, rfl⟩
    refine ⟨c, k, Nat.mul_comm _ _, ?_⟩
    rw [pow_add, Nat.mul_comm] at low
    exact Nat.lt_of_mul_lt_mul_right low

theorem fix_coefficient (d : Decimal) :
    (digits 10 (fix d).coefficient).length ≤ prec ∧ (fix d).negative = d.negative ∧
      ((fix d).coefficient = 0 ↔ d.coefficient = 0) := by
  by_cases short : (digits 10 d.coefficient).length ≤ prec
  · rw [fix_short d short]
    exact ⟨short, rfl, Iff.rfl⟩
  · obtain ⟨k, long⟩ := Nat.exists_eq_add_of_lt (Nat.not_le.mp short)
    obtain ⟨j, _, _, small, some, sign⟩ := fix_long d (k := k + 1) long (by omega)
    refine ⟨(length_digits_le (by decide) (by decide)).mpr small, sign, ?_⟩
    refine iff_of_false some.ne' ?_
    intro zero
    rw [zero] at short
    exact short (by decide)

/-- Rounding keeps the number exactly if it is short. A number that is rounded has no
digits left where it was cut. -/
theorem fix_worth (d : Decimal) : (fix d).worth = d.worth ↔ Short d.coefficient := by
  by_cases short : (digits 10 d.coefficient).length ≤ prec
  · rw [fix_short d short]
    exact iff_of_true rfl (short_length short)
  · obtain ⟨k, long⟩ := Nat.exists_eq_add_of_lt (Nat.not_le.mp short)
    obtain ⟨j, exponent, rounded, _⟩ := fix_long d (k := k + 1) long (by omega)
    have cast : ((fix d).coefficient : ℚ) * 10 ^ j = roundHalfEven d.coefficient (k + 1) := by
      exact_mod_cast rounded
    have worth : (fix d).worth =
        (roundHalfEven d.coefficient (k + 1) * 10 ^ (k + 1) : Nat) * 10 ^ d.exponent := by
      rw [Decimal.worth, exponent, Int.add_comm, zpow_add₀ ten_ne_zero, zpow_natCast, ← mul_assoc,
        cast, Int.add_comm, zpow_add₀ ten_ne_zero, zpow_natCast, ← mul_assoc, Nat.cast_mul]
      push_cast
      ring
    rw [worth, Decimal.worth, mul_left_inj' (zpow_ne_zero _ ten_ne_zero), Nat.cast_inj,
      roundHalfEven_exact, short_long (k := k + 1) long (by omega)]

theorem fix_exponent {d : Decimal} {n : Nat} {places : Int} (long : ¬Short d.coefficient)
    (same : d.worth = n * 10 ^ places) : places ≤ (fix d).exponent := by
  by_cases short : (digits 10 d.coefficient).length ≤ prec
  · exact absurd (short_length short) long
  · obtain ⟨k, length⟩ := Nat.exists_eq_add_of_lt (Nat.not_le.mp short)
    obtain ⟨j, exponent, _⟩ := fix_long d (k := k + 1) length (by omega)
    by_contra higher
    have cut : d.exponent + (k + 1 : Nat) ≤ places := by omega
    have zeros := coefficient_of_worth same (by omega)
    refine long ((short_long (k := k + 1) length (by omega)).mpr ?_)
    rw [zeros]
    exact Dvd.dvd.mul_left (pow_dvd_pow 10 (by omega)) n

/-! ## A fixed scale -/

/-- Nothing is rounded where the scale has room for the number. -/
theorem rescale_exact {d : Decimal} {n places : Nat} (same : d.worth = n * 10 ^ (-(places : Int))) :
    d.rescale places = ⟨d.negative, n, -places⟩ := by
  rw [rescale]
  split_ifs with higher
  · have zeros := coefficient_of_worth same.symm higher
    rw [zeros, sub_neg_eq_add]
  · have zeros := coefficient_of_worth same (Int.le_of_lt (Int.not_le.mp higher))
    rw [zeros, roundHalfEven_of_mul]

theorem rescale_worth {d : Decimal} {places : Nat} (higher : -(places : Int) ≤ d.exponent) :
    (d.rescale places).worth = d.worth := by
  have place :
      (10 : ℚ) ^ d.exponent = 10 ^ (d.exponent + places).toNat * 10 ^ (-(places : Int)) := by
    rw [← zpow_natCast, ← zpow_add₀ ten_ne_zero]
    congr 1
    omega
  rw [rescale, if_pos higher, worth, worth, place]
  push_cast
  ring

theorem rescale_negative (d : Decimal) (places : Nat) :
    (d.rescale places).negative = d.negative := by
  rw [rescale]
  split_ifs <;> rfl

end Decimal

/-! ## The text of a Decimal -/

theorem around_parts (n : Nat) (exponent : Int) :
    around (Decimal.parts (digits 10 n) exponent) = n * 10 ^ exponent := by
  simp only [Decimal.parts]
  split_ifs with small large none
  · rw [around, List.singleton_append, numeral_cons, Nat.zero_mul, Nat.zero_add,
      numeral_zeros_append, numeral_digits, List.length_append, List.length_replicate]
    congr 2
    omega
  · rw [around, List.append_nil, numeral_append_zeros, numeral_digits]
    have place :
        (exponent + (digits 10 n).length - (digits 10 n).length).toNat = exponent.toNat := by
      omega
    obtain ⟨k, rfl⟩ := Int.eq_ofNat_of_zero_le (show 0 ≤ exponent by omega)
    rw [place]
    simp
  · rw [around, none, Int.toNat_zero, List.drop_zero, List.singleton_append, numeral_cons,
      Nat.zero_mul, Nat.zero_add, numeral_digits]
    congr 2
    show -((digits 10 n).length : Int) = exponent
    omega
  · rw [around, List.take_append_drop, numeral_digits, List.length_drop]
    congr 2
    omega

theorem parts_digits (n : Nat) (exponent : Int) :
    (Decimal.parts (digits 10 n) exponent).1 ≠ [] ∧
      (∀ d ∈ (Decimal.parts (digits 10 n) exponent).1, d < 10) ∧
      ∀ d ∈ (Decimal.parts (digits 10 n) exponent).2, d < 10 := by
  have small := digits_lt (b := 10) (by decide) n
  have some := digits_ne_nil 10 n
  have zero : ∀ d ∈ [0], d < 10 := zeros_lt 1
  simp only [Decimal.parts]
  split_ifs with less more none
  · exact ⟨List.cons_ne_nil _ _, zero, List.forall_mem_append.mpr ⟨zeros_lt _, small⟩⟩
  · exact ⟨by simp [some], List.forall_mem_append.mpr ⟨small, zeros_lt _⟩, by simp⟩
  · exact ⟨List.cons_ne_nil _ _, zero, fun d member => small d (List.mem_of_mem_drop member)⟩
  · refine ⟨?_, fun d member => small d (List.mem_of_mem_take member),
      fun d member => small d (List.mem_of_mem_drop member)⟩
    rw [Ne, List.take_eq_nil_iff, not_or]
    exact ⟨by omega, some⟩

def pointText (fraction : List Nat) : Text :=
  if fraction.isEmpty then [] else '.' :: digitText fraction

/-- The digits can be read off the text. -/
theorem text_inj {integer fraction integer' fraction' : List Nat} (small : ∀ d ∈ integer, d < 10)
    (small' : ∀ d ∈ integer', d < 10) (behind : ∀ d ∈ fraction, d < 10)
    (behind' : ∀ d ∈ fraction', d < 10)
    (same : digitText integer ++ pointText fraction = digitText integer' ++ pointText fraction') :
    integer = integer' ∧ fraction = fraction' := by
  have front : ∀ {ds : List Nat} (fs : List Nat), (∀ d ∈ ds, d < 10) →
      (digitText ds ++ pointText fs).takeWhile (· ≠ '.') = digitText ds := by
    intro ds fs small
    rw [List.takeWhile_append_of_pos]
    · rw [pointText]
      split_ifs
      · simp
      · rw [List.takeWhile_cons_of_neg (by simp), List.append_nil]
    · intro c member
      refine decide_eq_true ?_
      rintro rfl
      exact not_mem_digitText (by decide) small member
  have texts : digitText integer = digitText integer' := by
    rw [← front fraction small, same, front fraction' small']
  refine ⟨digitText_inj small small' texts, ?_⟩
  rw [texts] at same
  have rest := List.append_cancel_left same
  rw [pointText, pointText] at rest
  cases fraction with
  | nil =>
    cases fraction' with
    | nil => rfl
    | cons d ds => cases rest
  | cons d ds =>
    cases fraction' with
    | nil => cases rest
    | cons d' ds' => exact digitText_inj behind behind' (List.cons.inj rest).2

namespace Decimal

/-- The digits that are shown: a zero has none behind its own. -/
def shown (d : Decimal) : List Nat × List Nat :=
  parts (digits 10 d.coefficient) (if d.coefficient = 0 ∧ 0 < d.exponent then 0 else d.exponent)

theorem format_eq (d : Decimal) : d.format =
    (if d.negative then ['-'] else []) ++ (digitText d.shown.1 ++ pointText d.shown.2) := by
  rw [← List.append_assoc]
  rfl

theorem around_shown (d : Decimal) : around d.shown = d.worth := by
  rw [shown, around_parts, worth]
  split_ifs with zero
  · rw [zero.1, Nat.cast_zero, zero_mul, zero_mul]
  · rfl

theorem shown_digits (d : Decimal) :
    d.shown.1 ≠ [] ∧ (∀ digit ∈ d.shown.1, digit < 10) ∧ ∀ digit ∈ d.shown.2, digit < 10 :=
  parts_digits _ _

theorem format_inj {d d' : Decimal} (same : d.format = d'.format) :
    d.negative = d'.negative ∧ d.worth = d'.worth := by
  obtain ⟨some, small, behind⟩ := d.shown_digits
  obtain ⟨some', small', behind'⟩ := d'.shown_digits
  rw [format_eq, format_eq] at same
  obtain ⟨sign, texts⟩ :=
    sign_inj (digitText_plain small some _) (digitText_plain small' some' _) same
  obtain ⟨integer, fraction⟩ := text_inj small small' behind behind' texts
  have shown : d.shown = d'.shown := Prod.ext integer fraction
  exact ⟨sign, by rw [← around_shown, shown, around_shown]⟩

/-- Nothing is behind the point of a whole number. -/
theorem parts_whole {ds : List Nat} (some : ds ≠ []) (k : Nat) :
    parts ds k = (ds ++ List.replicate k 0, []) := by
  have length := List.length_pos_iff.mpr some
  have place : ((k : Int) + ds.length - ds.length).toNat = k := by omega
  simp only [parts]
  rw [if_neg (by omega)]
  by_cases none : k = 0
  · rw [if_neg (by omega), if_neg (by omega), none, List.take_of_length_le (by omega),
      List.drop_of_length_le (by omega), List.replicate_zero, List.append_nil]
  · rw [if_pos (by omega), place]

/-- The scale at which a Decimal is shown. -/
def scale (d : Decimal) : Nat := if d.exponent < 0 then (-d.exponent).toNat else 0

/-- A Decimal is shown as the number it is at its scale. -/
theorem format_scaled (d : Decimal) : ∃ n : Nat, d.worth = n * 10 ^ (-(d.scale : Int)) ∧
    d.format = (Decimal.mk d.negative n (-(d.scale : Int))).format := by
  rw [scale]
  by_cases sign : d.exponent < 0
  · rw [if_pos sign, Int.toNat_of_nonneg (by omega), neg_neg]
    exact ⟨d.coefficient, rfl, rfl⟩
  · rw [if_neg sign]
    obtain ⟨k, whole⟩ := Int.eq_ofNat_of_zero_le (Int.not_lt.mp sign)
    refine ⟨d.coefficient * 10 ^ k, by simp [worth, whole], ?_⟩
    rw [format_eq, format_eq, shown, shown]
    by_cases zero : d.coefficient = 0
    · have exponent : (if d.coefficient = 0 ∧ 0 < d.exponent then 0 else d.exponent) = 0 := by
        split_ifs <;> omega
      rw [exponent, zero, Nat.zero_mul]
      rfl
    · have positive : d.coefficient * 10 ^ k ≠ 0 :=
        Nat.mul_ne_zero zero (Nat.pow_pos (by decide)).ne'
      have front : parts (digits 10 (d.coefficient * 10 ^ k)) 0 =
          (digits 10 (d.coefficient * 10 ^ k), []) := by
        have all := parts_whole (digits_ne_nil 10 (d.coefficient * 10 ^ k)) 0
        rwa [List.replicate_zero, List.append_nil] at all
      have same : parts (digits 10 d.coefficient) d.exponent =
          (digits 10 (d.coefficient * 10 ^ k), []) := by
        rw [whole, digits_mul_pow (by decide) zero]
        exact parts_whole (digits_ne_nil 10 d.coefficient) k
      simp only [zero, positive, false_and, if_false, same, Nat.cast_zero, neg_zero, front]

end Decimal

/-! ## Reading a header -/

section Reading

variable {data rest : List UInt8} {offset : Int}

theorem unpackUInt16_of_stands {n : Nat} (small : n < 2 ^ 16)
    (h : Stands data offset (Wire.packInt16 n ++ rest)) :
    unpackUInt16 data offset = some n ∧ Stands data (offset + 2) rest := by
  obtain ⟨a, b, packed, value⟩ := Wire.int16_packInt16 n
  rw [packed] at h
  obtain ⟨read, moved⟩ := Wire.unpackInt16_of_stands h
  have same : (Wire.int16 a b % 2 ^ 16).toNat = n := by
    rw [value]
    split_ifs <;> omega
  exact ⟨by rw [unpackUInt16, read, Option.map_some, same], moved⟩

theorem unpackInt16_of_packed {value : Int} (range : -2 ^ 15 ≤ value ∧ value < 2 ^ 15)
    (h : Stands data offset (Wire.packInt16 value ++ rest)) :
    Wire.unpackInt16 data offset = some value ∧ Stands data (offset + 2) rest := by
  obtain ⟨a, b, packed, unpacked⟩ := Wire.int16_packInt16 value
  rw [packed] at h
  obtain ⟨read, moved⟩ := Wire.unpackInt16_of_stands h
  have same : Wire.int16 a b = value := by
    rw [unpacked]
    split_ifs <;> omega
  exact ⟨by rw [read, same], moved⟩

theorem unpackGroups_of_stands (groups : List Nat) : ∀ offset,
    (∀ group ∈ groups, group < 2 ^ 16) →
    Stands data offset (groups.flatMap (fun (group : Nat) => Wire.packInt16 group) ++ rest) →
    unpackGroups data groups.length offset = some groups := by
  induction groups with
  | nil =>
    intro offset _ _
    rfl
  | cons group groups ih =>
    intro offset small h
    obtain ⟨first, others⟩ := List.forall_mem_cons.mp small
    rw [List.flatMap_cons, List.append_assoc] at h
    obtain ⟨read, moved⟩ := unpackUInt16_of_stands first h
    rw [List.length_cons, unpackGroups, read, ih _ others moved]
    rfl

end Reading

/-- The digits of the groups, taken as one number again. -/
theorem numeral_groups {groups : List Nat} (small : ∀ group ∈ groups, group < 10000) :
    (groups.flatMap fun group => rjust 4 (digits 10 group)).length = 4 * groups.length ∧
      numeral 10 (groups.flatMap fun group => rjust 4 (digits 10 group)) =
        numeral 10000 groups := by
  induction groups with
  | nil => exact ⟨rfl, rfl⟩
  | cons group groups ih =>
    obtain ⟨first, others⟩ := List.forall_mem_cons.mp small
    obtain ⟨length, same⟩ := ih others
    have four : (rjust 4 (digits 10 group)).length = 4 := by
      rw [length_rjust, Nat.max_eq_left]
      exact (length_digits_le (by decide) (by decide)).mpr first
    have padded := numeral_rjust 10 4 (digits 10 group) []
    rw [List.append_nil, List.append_nil, numeral_digits] at padded
    constructor
    · rw [List.flatMap_cons, List.length_append, four, length, List.length_cons]
      omega
    · rw [List.flatMap_cons, numeral_append, padded, length, same, numeral_cons, pow_mul]
      rfl

/-- The number of a header before it is rounded. -/
def Header.number (h : Header) : Decimal :=
  ⟨false, numeral 10000 h.groups, (h.weight + 1 - h.groups.length) * 4⟩

theorem number_worth (d : Decimal) : (header d).number.worth = d.worth := by
  rw [← header_exact d]
  simp only [Decimal.worth, Header.number]
  rw [Int.mul_comm, zpow_mul]
  norm_num

/-- A header is decoded to its number, rounded and with its sign. -/
theorem decode_bytes {h : Header} (fits : h.Fits) (small : ∀ group ∈ h.groups, group < 10000)
    (finite : h.sign = numericPos ∨ h.sign = numericNeg) :
    decodeNumeric h.bytes =
      some ((if h.sign = numericNeg then h.number.fix.neg
        else h.number.fix).formatFixed h.dscale) := by
  have start : Stands h.bytes 0 h.bytes := Offsets.stands_start _
  have sign : h.sign < 2 ^ 16 := by
    rcases finite with same | same <;> rw [same] <;> decide
  nth_rewrite 2 [Header.bytes] at start
  obtain ⟨ndigits, stands⟩ := unpackUInt16_of_stands fits.ndigits start
  obtain ⟨weight, stands⟩ := unpackInt16_of_packed fits.weight stands
  obtain ⟨sign', stands⟩ := unpackUInt16_of_stands sign stands
  obtain ⟨dscale, stands⟩ := unpackUInt16_of_stands fits.dscale stands
  rw [← List.append_nil (h.groups.flatMap _)] at stands
  have groups := unpackGroups_of_stands h.groups _ (fun group member => by
    have four := small group member
    omega) stands
  simp only [Int.zero_add, Int.reduceAdd] at weight sign' dscale groups
  obtain ⟨length, value⟩ := numeral_groups small
  have text :
      numeral 10 (if (h.groups.flatMap fun group => rjust 4 (digits 10 group)).isEmpty then [0]
      else h.groups.flatMap fun group => rjust 4 (digits 10 group)) = numeral 10000 h.groups := by
    split_ifs with empty
    · rw [← value, List.isEmpty_iff.mp empty]
      rfl
    · exact value
  have plain : h.sign ≠ numericNan ∧ h.sign ≠ numericPinf ∧ h.sign ≠ numericNinf := by
    rcases finite with same | same <;> rw [same] <;> decide
  rw [decodeNumeric, ndigits, weight, sign', dscale]
  simp only [bind, Option.bind, if_neg plain.1, if_neg plain.2.1, if_neg plain.2.2, groups, text]
  rw [Decimal.scaleb, Int.zero_add]
  rfl

/-! ## The two formats -/

/-- The sign of a rounded number: a zero has none. -/
theorem signed_fix (d : Decimal) (sign : Bool) (plain : d.negative = false) :
    (if sign = true then d.fix.neg else d.fix) =
      ⟨sign && d.coefficient != 0, d.fix.coefficient, d.fix.exponent⟩ := by
  obtain ⟨short, negative, zero⟩ := d.fix_coefficient
  rw [plain] at negative
  cases sign with
  | false =>
    rw [if_neg (by decide), Bool.false_and, ← negative]
  | true =>
    rw [if_pos rfl, Decimal.neg]
    by_cases none : d.coefficient = 0
    · rw [if_pos (zero.mpr none), none]
      rfl
    · have kept := Decimal.fix_short ⟨!d.fix.negative, d.fix.coefficient, d.fix.exponent⟩ short
      rw [if_neg (fun some => none (zero.mp some)), kept, negative]
      simp [none]

/-- What the decoder makes of the encoded Decimal. -/
def passed (d : Decimal) : Decimal :=
  ⟨d.negative && d.coefficient != 0, (header d).number.fix.coefficient, (header d).number.fix.exponent⟩

theorem passed_worth (d : Decimal) : (passed d).worth = (header d).number.fix.worth := by
  rw [Decimal.worth, Decimal.worth, passed]

theorem decode_encoded (d : Decimal) (fits : (header d).Fits) :
    (encodeNumericBin (.finite d) >>= decodeNumeric) = some ((passed d).formatFixed d.scale) := by
  have sign : (header d).sign = if d.negative then numericNeg else numericPos := rfl
  have finite : (header d).sign = numericPos ∨ (header d).sign = numericNeg := by
    rw [sign]
    cases d.negative
    · exact Or.inl rfl
    · exact Or.inr rfl
  have minus : (header d).sign = numericNeg ↔ d.negative = true := by
    rw [sign]
    cases d.negative <;> decide
  have zero : ((header d).number.coefficient != 0) = (d.coefficient != 0) := by
    rw [Bool.eq_iff_iff, bne_iff_ne, bne_iff_ne, Ne, Ne,
      zero_of_scaled (zpow_ne_zero _ ten_ne_zero) (zpow_ne_zero _ ten_ne_zero) (number_worth d)]
  rw [encode_of_fits d fits]
  refine (decode_bytes fits (header_groups_lt d) finite).trans ?_
  simp only [minus]
  rw [signed_fix _ _ rfl, zero]
  rfl

/-- The binary format says what the text says exactly of the numbers of at most 28 digits
and zeros behind them, but for the sign of a zero. -/
theorem numeric_formats_iff (d : Decimal) (fits : (header d).Fits) :
    (encodeNumericBin (.finite d) >>= decodeNumeric) = some (decimalOut (.finite d)) ↔
      Short d.coefficient ∧ ¬(d.negative = true ∧ d.coefficient = 0) := by
  have exact' := number_worth d
  have short := short_of_worth exact'
  rw [decode_encoded d fits, Option.some.injEq, Decimal.formatFixed, decimalOut]
  obtain ⟨n, whole, shown⟩ := d.format_scaled
  constructor
  · intro same
    obtain ⟨sign, worth⟩ := Decimal.format_inj same
    rw [Decimal.rescale_negative, passed] at sign
    refine ⟨?_, ?_⟩
    · by_contra long
      have rounded := Decimal.fix_exponent (fun fine => long (short.mp fine)) (exact'.trans whole)
      have above : -(d.scale : Int) ≤ (passed d).exponent := by
        simp only [passed]
        exact rounded
      rw [Decimal.rescale_worth above, passed_worth, ← exact',
        Decimal.fix_worth] at worth
      exact long (short.mp worth)
    · rintro ⟨negative, zero⟩
      simp [negative, zero] at sign
  · rintro ⟨fine, sign⟩
    have kept : (passed d).worth = n * 10 ^ (-(d.scale : Int)) := by
      rw [passed_worth, (Decimal.fix_worth _).mpr (short.mpr fine), exact', whole]
    rw [Decimal.rescale_exact kept, shown, passed]
    have same : (d.negative && d.coefficient != 0) = d.negative := by
      cases negative : d.negative with
      | false => rfl
      | true =>
        have some : d.coefficient ≠ 0 := fun zero => sign ⟨negative, zero⟩
        simp [some]
    rw [same]

theorem price_formats :
    (encodeNumericBin (.finite price) >>= decodeNumeric) = some (decimalOut (.finite price)) :=
  (numeric_formats_iff price ⟨by decide, by decide, by decide⟩).mpr
    ⟨⟨123456700, 0, by decide, by decide⟩, by decide⟩

/-- 29 digits. -/
def longNumber : Decimal := ⟨false, 12345678901234567890123456789, 0⟩

theorem longNumber_rounded :
    (header longNumber).Fits ∧
      decimalOut (.finite longNumber) = "12345678901234567890123456789".toList ∧
      (encodeNumericBin (.finite longNumber) >>= decodeNumeric) =
        some "12345678901234567890123456790".toList ∧
      (encodeNumericBin (.finite longNumber) >>= decodeNumeric) ≠
        some (decimalOut (.finite longNumber)) :=
  ⟨⟨by decide, by decide, by decide⟩, by decide +kernel, by decide +kernel, by decide +kernel⟩

end PgMimic.Numeric
