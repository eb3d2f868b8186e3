import Mathlib.Tactic.FieldSimp
import Mathlib.Tactic.Ring
import PgMimic.Lib.Trim
import PgMimic.Numeric

/-!
# The groups of a numeric

The digits around the point are padded to fours and taken together; the groups then stand
for the number as they are, whatever zeros are left out at their ends.
-/

namespace PgMimic.Numeric

open Positional

/-! ## Digits around the point -/

/-- The number with these digits in front of the point and behind it. -/
def around (ds : List Nat × List Nat) : ℚ :=
  numeral 10 (ds.1 ++ ds.2) * 10 ^ (-(ds.2.length : Int))

/-- The number a Decimal is, its sign left out. -/
def Decimal.worth (d : Decimal) : ℚ := d.coefficient * 10 ^ d.exponent

theorem numeral_rjust (b width : Nat) (ds rest : List Nat) :
    numeral b (rjust width ds ++ rest) = numeral b (ds ++ rest) := by
  rw [rjust, List.append_assoc, numeral_zeros_append]

theorem length_rjust (width : Nat) (ds : List Nat) :
    (rjust width ds).length = max width ds.length := by
  rw [rjust, List.length_append, List.length_replicate]
  omega

theorem length_ljust (width : Nat) (ds : List Nat) :
    (ljust width ds).length = max width ds.length := by
  rw [ljust, List.length_append, List.length_replicate]
  omega

theorem around_rjust (width : Nat) (integer fraction : List Nat) :
    around (rjust width integer, fraction) = around (integer, fraction) := by
  rw [around, around, numeral_rjust]

/-- Zeros behind the last place change nothing. -/
theorem around_ljust (width : Nat) (integer fraction : List Nat) :
    around (integer, ljust width fraction) = around (integer, fraction) := by
  have ten : (10 : ℚ) ≠ 0 := by norm_num
  rw [around, around, ljust, ← List.append_assoc, numeral_append_zeros, List.length_append,
    List.length_replicate]
  generalize width - fraction.length = n
  push_cast
  rw [neg_add, zpow_add₀ ten, zpow_neg _ (n : Int), zpow_natCast]
  field_simp

theorem around_split (n : Nat) (exponent : Int) :
    around (split (digits 10 n) exponent) = n * 10 ^ exponent := by
  rw [split]
  by_cases sign : 0 ≤ exponent
  · rw [if_pos sign, around, List.append_nil, numeral_append_zeros, numeral_digits]
    obtain ⟨k, rfl⟩ := Int.eq_ofNat_of_zero_le sign
    simp
  · rw [if_neg sign, around, List.take_append_drop, List.length_drop, length_rjust]
    have shorter : max ((-exponent).toNat + 1) (digits 10 n).length -
        (max ((-exponent).toNat + 1) (digits 10 n).length - (-exponent).toNat) =
        (-exponent).toNat := by omega
    have same := numeral_rjust 10 ((-exponent).toNat + 1) (digits 10 n) []
    rw [List.append_nil, List.append_nil, numeral_digits] at same
    rw [shorter, same, Int.toNat_of_nonneg (by omega), neg_neg]

/-! ## Groups -/

theorem length_fours (ds : List Nat) : (fours ds).length = (ds.length + 3) / 4 := by
  rw [fours, List.length_map, Chunks.length_chunks]

theorem numeral_fours {ds : List Nat} (even : ds.length % 4 = 0) :
    numeral 10000 (fours ds) = numeral 10 ds :=
  numeral_chunks 10 4 _ ds (by omega)

theorem fours_lt {ds : List Nat} (even : ds.length % 4 = 0) (bound : ∀ d ∈ ds, d < 10) :
    ∀ group ∈ fours ds, group < 10000 := by
  rw [fours, List.forall_mem_map]
  intro piece member
  have width := Chunks.length_of_mem_chunks (n := (ds.length + 3) / 4) (by omega) piece member
  have small := numeral_lt (b := 10) (by decide) fun d inside =>
    bound d (Chunks.mem_of_mem_chunks piece member d inside)
  rwa [width] at small

theorem whole_mod (n : Nat) : whole n % 4 = 0 := by
  rw [whole, Nat.mul_mod_left]

theorem le_whole (n : Nat) : n ≤ whole n := by
  rw [whole]
  omega

/-- The groups of digits padded to fours, those behind the point counted. -/
theorem groups_exact {integer fraction : List Nat} (even : integer.length % 4 = 0)
    (even' : fraction.length % 4 = 0) :
    (numeral 10000 (fours integer ++ fours fraction) : ℚ) * 10000 ^ (-((fours fraction).length : Int)) =
      around (integer, fraction) := by
  have count : fraction.length = 4 * (fours fraction).length := by
    rw [length_fours]
    omega
  rw [numeral_append, numeral_fours even, numeral_fours even', around, numeral_append, count]
  generalize (fours fraction).length = n
  have place : (10 : ℚ) ^ (-((4 * n : Nat) : Int)) = 10000 ^ (-(n : Int)) := by
    rw [Nat.cast_mul, ← mul_neg, zpow_mul]
    norm_num
  rw [place, pow_mul]
  norm_num

theorem strip_exact (groups : List Nat) (weight : Int) :
    (numeral 10000 (strip groups weight).1 : ℚ) *
        10000 ^ ((strip groups weight).2 + 1 - (strip groups weight).1.length) =
      numeral 10000 groups * 10000 ^ (weight + 1 - groups.length) := by
  have base : (10000 : ℚ) ≠ 0 := by norm_num
  have front :
      (groups.takeWhile (· = 0)).length + (groups.dropWhile (· = 0)).length = groups.length := by
    rw [← List.length_append, List.takeWhile_append_dropWhile]
  have back := numeral_rdropWhile 10000 (groups.dropWhile (· = 0))
  have shorter := (List.rdropWhile_prefix (p := fun d : Nat => decide (d = 0))
    (l := groups.dropWhile (· = 0))).length_le
  rw [numeral_dropWhile] at back
  simp only [strip]
  generalize (groups.dropWhile (· = 0)).rdropWhile (· = 0) = kept at back shorter
  generalize (groups.dropWhile (· = 0)).length = rest at front back shorter
  cases kept with
  | nil => simp [back]
  | cons group kept =>
    rw [if_neg (by simp), back, Nat.cast_mul, Nat.cast_pow, mul_assoc]
    rw [Nat.cast_ofNat, ← zpow_natCast, ← zpow_add₀ base]
    congr 2
    omega

theorem header_exact (d : Decimal) :
    (numeral 10000 (header d).groups : ℚ) *
        10000 ^ ((header d).weight + 1 - (header d).groups.length) = d.worth := by
  simp only [header]
  rw [strip_exact, Decimal.worth, ← around_split, ← around_rjust (whole _), ← around_ljust (whole _),
    ← groups_exact, List.length_append]
  · congr 2
    push_cast
    ring
  · rw [length_rjust, Nat.max_eq_left (le_whole _)]
    exact whole_mod _
  · rw [length_ljust, Nat.max_eq_left (le_whole _)]
    exact whole_mod _

/-! ## Canonical headers -/

/-- A header the wire can carry. -/
structure Header.Fits (h : Header) : Prop where
  ndigits : h.groups.length < 2 ^ 16
  weight : -2 ^ 15 ≤ h.weight ∧ h.weight < 2 ^ 15
  dscale : h.dscale < 2 ^ 16

theorem strip_canonical (groups : List Nat) (weight : Int) :
    (∀ group ∈ (strip groups weight).1, group ∈ groups) ∧
      (∀ group ∈ (strip groups weight).1.head?, group ≠ 0) ∧
      (∀ group ∈ (strip groups weight).1.getLast?, group ≠ 0) ∧
      ((strip groups weight).1 = [] → (strip groups weight).2 = 0) := by
  have solid := Trim.solid_trim (p := fun d : Nat => decide (d = 0)) groups
  refine ⟨fun group member => ?_, fun group member => ?_, fun group member => ?_, fun none => ?_⟩
  · have inside := (List.rdropWhile_prefix (fun d : Nat => decide (d = 0)) _).subset member
    exact (List.dropWhile_suffix _).subset inside
  · exact of_decide_eq_false (solid.1 group member)
  · exact of_decide_eq_false (solid.2 group member)
  · simp only [strip] at none ⊢
    rw [none]
    rfl

theorem zeros_lt (n : Nat) : ∀ d ∈ List.replicate n 0, d < 10 := by
  intro d member
  rw [List.eq_of_mem_replicate member]
  decide

theorem rjust_lt {ds : List Nat} (small : ∀ d ∈ ds, d < 10) (width : Nat) :
    ∀ d ∈ rjust width ds, d < 10 := by
  rw [rjust, List.forall_mem_append]
  exact ⟨zeros_lt _, small⟩

theorem ljust_lt {ds : List Nat} (small : ∀ d ∈ ds, d < 10) (width : Nat) :
    ∀ d ∈ ljust width ds, d < 10 := by
  rw [ljust, List.forall_mem_append]
  exact ⟨small, zeros_lt _⟩

theorem digits_of_split (n : Nat) (exponent : Int) :
    (∀ d ∈ (split (digits 10 n) exponent).1, d < 10) ∧
      ∀ d ∈ (split (digits 10 n) exponent).2, d < 10 := by
  have small := digits_lt (b := 10) (by decide) n
  rw [split]
  split_ifs with sign
  · exact ⟨List.forall_mem_append.mpr ⟨small, zeros_lt _⟩, fun d member =>
      absurd member List.not_mem_nil⟩
  · exact ⟨fun d member => rjust_lt small _ d (List.mem_of_mem_take member),
      fun d member => rjust_lt small _ d (List.mem_of_mem_drop member)⟩

theorem header_groups_lt (d : Decimal) : ∀ group ∈ (header d).groups, group < 10000 := by
  obtain ⟨integer, fraction⟩ := digits_of_split d.coefficient d.exponent
  intro group member
  simp only [header] at member
  rcases List.mem_append.mp ((strip_canonical _ _).1 group member) with front | back
  · refine fours_lt ?_ (rjust_lt integer _) group front
    rw [length_rjust, Nat.max_eq_left (le_whole _)]
    exact whole_mod _
  · refine fours_lt ?_ (ljust_lt fraction _) group back
    rw [length_ljust, Nat.max_eq_left (le_whole _)]
    exact whole_mod _

theorem numeral_pos {b : Nat} (base : 0 < b) {ds : List Nat} (some : ds ≠ [])
    (first : ∀ d ∈ ds.head?, d ≠ 0) : 0 < numeral b ds := by
  cases ds with
  | nil => exact absurd rfl some
  | cons d ds =>
    rw [numeral_cons]
    have nonzero := first d rfl
    have place := Nat.pow_pos base (n := ds.length)
    have product := Nat.mul_pos (Nat.pos_of_ne_zero nonzero) place
    omega

/-- Of two numbers that are the same to scale, both are zero or neither. -/
theorem zero_of_scaled {n m : Nat} {a b : ℚ} (left : a ≠ 0) (right : b ≠ 0)
    (same : (n : ℚ) * a = m * b) : n = 0 ↔ m = 0 := by
  constructor
  · rintro rfl
    rw [Nat.cast_zero, zero_mul] at same
    exact_mod_cast (mul_eq_zero.mp same.symm).resolve_right right
  · rintro rfl
    rw [Nat.cast_zero, zero_mul] at same
    exact_mod_cast (mul_eq_zero.mp same).resolve_right left

theorem numeral_eq_zero_iff {b : Nat} (base : 0 < b) {ds : List Nat}
    (first : ∀ d ∈ ds.head?, d ≠ 0) : numeral b ds = 0 ↔ ds = [] := by
  constructor
  · intro zero
    by_contra some
    have positive := numeral_pos base some first
    omega
  · rintro rfl
    exact numeral_nil

theorem groups_eq_nil_iff (d : Decimal) : (header d).groups = [] ↔ d.coefficient = 0 := by
  have first : ∀ group ∈ (header d).groups.head?, group ≠ 0 := by
    simp only [header]
    exact (strip_canonical _ _).2.1
  rw [← numeral_eq_zero_iff (by decide : 0 < 10000) first]
  exact zero_of_scaled (zpow_ne_zero _ (by norm_num)) (zpow_ne_zero _ (by norm_num))
    (header_exact d)

/-! ## Bytes -/

def Header.bytes (h : Header) : List UInt8 :=
  Wire.packInt16 h.groups.length ++ (Wire.packInt16 h.weight ++ (Wire.packInt16 h.sign ++
    (Wire.packInt16 h.dscale ++ h.groups.flatMap fun (group : Nat) => Wire.packInt16 group)))

theorem mapM_packUInt16 {groups : List Nat} (small : ∀ group ∈ groups, group < 2 ^ 16) :
    groups.mapM packUInt16 = some (groups.map fun (group : Nat) => Wire.packInt16 group) := by
  induction groups with
  | nil => rfl
  | cons group groups ih =>
    obtain ⟨first, others⟩ := List.forall_mem_cons.mp small
    rw [List.mapM_cons, ih others, packUInt16, if_pos first]
    rfl

theorem pack_of_fits {h : Header} (fits : h.Fits) (sign : h.sign < 2 ^ 16)
    (small : ∀ group ∈ h.groups, group < 2 ^ 16) : h.pack = some h.bytes := by
  rw [Header.pack, packUInt16, if_pos fits.ndigits, packSigned, if_pos fits.weight, packUInt16,
    if_pos sign, packUInt16, if_pos fits.dscale, mapM_packUInt16 small]
  rw [Header.bytes, List.flatMap_def]
  rfl

theorem encode_of_fits (d : Decimal) (fits : (header d).Fits) :
    encodeNumericBin (.finite d) = some (header d).bytes := by
  apply pack_of_fits fits
  · simp only [header]
    cases d.negative <;> decide
  · intro group member
    have small := header_groups_lt d group member
    omega

/-- The groups stand for the number, and are written in one way only. -/
theorem header_canonical (d : Decimal) (fits : (header d).Fits) :
    encodeNumericBin (.finite d) = some (header d).bytes ∧
      ∑ i : Fin (header d).groups.length,
        ((header d).groups[i] : ℚ) * 10000 ^ ((header d).weight - i) =
          d.coefficient * 10 ^ d.exponent ∧
      (∀ group ∈ (header d).groups, group ≤ 9999) ∧
      (∀ group ∈ (header d).groups.head?, group ≠ 0) ∧
      (∀ group ∈ (header d).groups.getLast?, group ≠ 0) ∧
      (d.coefficient = 0 → (header d).groups = [] ∧ (header d).weight = 0) ∧
      ((header d).dscale : Int) = max 0 (-d.exponent) := by
  refine ⟨encode_of_fits d fits, ?_, ?_, ?_, ?_, ?_, ?_⟩
  · have base : ((10000 : Nat) : ℚ) ≠ 0 := by norm_num
    exact (sum_numeral base (header d).groups (header d).weight).trans (header_exact d)
  · intro group member
    have small := header_groups_lt d group member
    omega
  · simp only [header]
    exact (strip_canonical _ _).2.1
  · simp only [header]
    exact (strip_canonical _ _).2.2.1
  · intro zero
    have none := (groups_eq_nil_iff d).mpr zero
    refine ⟨none, ?_⟩
    simp only [header] at none ⊢
    exact (strip_canonical _ _).2.2.2 none
  · simp only [header]
    split_ifs <;> omega

def price : Decimal := ⟨false, 123456700, -4⟩

/-- 12345.6700. -/
theorem price_header :
    (header price).groups = [1, 2345, 6700] ∧ (header price).weight = 1 ∧
      encodeNumericBin (.finite price) = some (header price).bytes :=
  ⟨by decide, by decide,
    (header_canonical price ⟨by decide, by decide, by decide⟩).1⟩

end PgMimic.Numeric
