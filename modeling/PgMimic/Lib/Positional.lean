import Mathlib.Algebra.BigOperators.Fin
import Mathlib.Algebra.BigOperators.Ring.Finset
import Mathlib.Algebra.Field.Basic
import Mathlib.Data.List.DropRight
import Mathlib.Data.Nat.Digits.Lemmas
import PgMimic.Lib.Chunks

/-!
# Numerals with the first digit in front

The number a list of digits stands for in a base, its digits from the most significant
one. Digits can be taken together to those of a power of the base, and leading zeros do
not count.
-/

namespace Positional

/-- The number of these digits. -/
def numeral (b : Nat) (ds : List Nat) : Nat := Nat.ofDigits b ds.reverse

/-- The digits of a number, of which zero has one. -/
def digits (b n : Nat) : List Nat := if n = 0 then [0] else (Nat.digits b n).reverse

variable {b : Nat}

@[simp] theorem numeral_nil : numeral b [] = 0 := rfl

@[simp] theorem numeral_singleton (d : Nat) : numeral b [d] = d := Nat.ofDigits_singleton

theorem numeral_append (b : Nat) (xs ys : List Nat) :
    numeral b (xs ++ ys) = numeral b xs * b ^ ys.length + numeral b ys := by
  rw [numeral, List.reverse_append, Nat.ofDigits_append, List.length_reverse, Nat.add_comm,
    Nat.mul_comm]
  rfl

theorem numeral_cons (b d : Nat) (ds : List Nat) :
    numeral b (d :: ds) = d * b ^ ds.length + numeral b ds := by
  have split := numeral_append b [d] ds
  rwa [numeral_singleton] at split

theorem numeral_replicate_zero (b n : Nat) : numeral b (List.replicate n 0) = 0 := by
  rw [numeral, List.reverse_replicate, Nat.ofDigits_replicate_zero]

theorem numeral_zeros_append (b n : Nat) (ds : List Nat) :
    numeral b (List.replicate n 0 ++ ds) = numeral b ds := by
  rw [numeral_append, numeral_replicate_zero, Nat.zero_mul, Nat.zero_add]

theorem numeral_append_zeros (b n : Nat) (ds : List Nat) :
    numeral b (ds ++ List.replicate n 0) = numeral b ds * b ^ n := by
  rw [numeral_append, numeral_replicate_zero, List.length_replicate, Nat.add_zero]

theorem numeral_digits (b n : Nat) : numeral b (digits b n) = n := by
  rw [digits]
  split_ifs with zero
  · rw [numeral_singleton, zero]
  · rw [numeral, List.reverse_reverse, Nat.ofDigits_digits]

theorem digits_ne_nil (b n : Nat) : digits b n ≠ [] := by
  rw [digits]
  split_ifs with zero
  · exact List.cons_ne_nil _ _
  · rw [Ne, List.reverse_eq_nil_iff, Nat.digits_eq_nil_iff_eq_zero]
    exact zero

theorem digits_lt (base : 1 < b) (n : Nat) : ∀ d ∈ digits b n, d < b := by
  intro d member
  rw [digits] at member
  split_ifs at member with zero
  · rw [List.mem_singleton.mp member]
    omega
  · exact Nat.digits_lt_base base (List.mem_reverse.mp member)

theorem numeral_lt (base : 1 < b) {ds : List Nat} (bound : ∀ d ∈ ds, d < b) :
    numeral b ds < b ^ ds.length := by
  rw [← List.length_reverse]
  exact Nat.ofDigits_lt_base_pow_length base fun d member => bound d (List.mem_reverse.mp member)

theorem length_digits_le (base : 1 < b) {n k : Nat} (some : 0 < k) :
    (digits b n).length ≤ k ↔ n < b ^ k := by
  rw [digits]
  split_ifs with zero
  · rw [zero]
    exact iff_of_true some (Nat.pow_pos (by omega))
  · rw [List.length_reverse, Nat.digits_length_le_iff base]

theorem digits_mul_pow (base : 1 < b) {n : Nat} (some : n ≠ 0) (k : Nat) :
    digits b (n * b ^ k) = digits b n ++ List.replicate k 0 := by
  have positive : n * b ^ k ≠ 0 := Nat.mul_ne_zero some (Nat.pow_pos (by omega)).ne'
  rw [digits, if_neg positive, digits, if_neg some, Nat.mul_comm,
    Nat.digits_base_pow_mul base (Nat.pos_of_ne_zero some), List.reverse_append,
    List.reverse_replicate]

/-! ## Decimal digits as characters -/

/-- A text of decimal digits. -/
def digitText (ds : List Nat) : List Char := ds.map Nat.digitChar

def readDigits (text : List Char) : List Nat := text.map fun c => c.toNat - 48

theorem digitChar_small {d : Nat} (small : d < 10) :
    d.digitChar.toNat - 48 = d ∧ d.digitChar.isDigit = true := by
  revert d
  decide

theorem readDigits_digitText {ds : List Nat} (small : ∀ d ∈ ds, d < 10) :
    readDigits (digitText ds) = ds := by
  rw [readDigits, digitText, List.map_map]
  conv_rhs => rw [← List.map_id ds]
  exact List.map_congr_left fun d member => (digitChar_small (small d member)).1

theorem digitText_inj {ds ds' : List Nat} (small : ∀ d ∈ ds, d < 10) (small' : ∀ d ∈ ds', d < 10)
    (same : digitText ds = digitText ds') : ds = ds' := by
  rw [← readDigits_digitText small, same, readDigits_digitText small']

theorem not_mem_digitText {c : Char} (other : c.isDigit = false) {ds : List Nat}
    (small : ∀ d ∈ ds, d < 10) : c ∉ digitText ds := by
  intro member
  obtain ⟨d, inside, rfl⟩ := List.mem_map.mp member
  rw [(digitChar_small (small d inside)).2] at other
  cases other

/-- A minus sign in front of a text that has none can be told from the text. -/
theorem sign_inj {sign sign' : Bool} {text text' : List Char} (plain : ∀ rest, text ≠ '-' :: rest)
    (plain' : ∀ rest, text' ≠ '-' :: rest)
    (same : (if sign then ['-'] else []) ++ text = (if sign' then ['-'] else []) ++ text') :
    sign = sign' ∧ text = text' := by
  cases sign <;> cases sign'
  · exact ⟨rfl, same⟩
  · exact absurd same (plain _)
  · exact absurd same.symm (plain' _)
  · exact ⟨rfl, (List.cons.inj same).2⟩

theorem digitText_plain {ds : List Nat} (small : ∀ d ∈ ds, d < 10) (some : ds ≠ [])
    (behind rest : List Char) : digitText ds ++ behind ≠ '-' :: rest := by
  obtain ⟨digit, digits, rfl⟩ := List.exists_cons_of_ne_nil some
  intro sign
  have front : digit.digitChar = '-' := (List.cons.inj sign).1
  refine not_mem_digitText (c := '-') (by decide) small ?_
  rw [← front]
  exact List.mem_cons_self

/-! ## Zeros at the ends -/

theorem numeral_dropWhile (b : Nat) (ds : List Nat) :
    numeral b (ds.dropWhile (· = 0)) = numeral b ds := by
  induction ds with
  | nil => rfl
  | cons d ds ih =>
    by_cases zero : d = 0
    · rw [List.dropWhile_cons_of_pos (by simp [zero]), ih, numeral_cons, zero, Nat.zero_mul,
        Nat.zero_add]
    · rw [List.dropWhile_cons_of_neg (by simp [zero])]

theorem numeral_rdropWhile (b : Nat) (ds : List Nat) :
    numeral b ds =
      numeral b (ds.rdropWhile (· = 0)) * b ^ (ds.length - (ds.rdropWhile (· = 0)).length) := by
  induction ds using List.reverseRecOn with
  | nil => rfl
  | append_singleton ds d ih =>
    by_cases zero : d = 0
    · have shorter :=
        (List.rdropWhile_prefix (p := fun d : Nat => decide (d = 0)) (l := ds)).length_le
      have last : numeral b (ds ++ [d]) = numeral b ds * b := by
        rw [numeral_append, numeral_singleton, zero, List.length_singleton, pow_one, Nat.add_zero]
      rw [List.rdropWhile_concat_pos _ _ _ (by simp [zero]), List.length_append,
        List.length_singleton, Nat.sub_add_comm shorter, pow_succ, ← Nat.mul_assoc, ← ih, last]
    · rw [List.rdropWhile_concat_neg _ _ _ (by simp [zero]), Nat.sub_self, pow_zero, Nat.mul_one]

/-! ## Digits taken together -/

theorem numeral_chunks (b k n : Nat) : ∀ ds : List Nat, ds.length = n * k →
    numeral (b ^ k) ((Chunks.chunks k n ds).map (numeral b)) = numeral b ds := by
  induction n with
  | zero =>
    intro ds size
    rw [Nat.zero_mul, List.length_eq_zero_iff] at size
    rw [size]
    rfl
  | succ n ih =>
    intro ds size
    have rest : (ds.drop k).length = n * k := by
      rw [List.length_drop, size, Nat.succ_mul, Nat.add_sub_cancel]
    rw [Chunks.chunks, List.map_cons, numeral_cons, ih _ rest, List.length_map, Chunks.length_chunks,
      ← pow_mul, Nat.mul_comm k n, ← rest, ← numeral_append, List.take_append_drop]

/-- Each digit by its place, the first of which is `w`. -/
theorem sum_numeral {K : Type*} [Field K] (nonzero : (b : K) ≠ 0) (ds : List Nat) : ∀ w : Int,
    ∑ i : Fin ds.length, (ds[i] : K) * (b : K) ^ (w - i) =
      numeral b ds * (b : K) ^ (w + 1 - ds.length) := by
  induction ds with
  | nil =>
    intro w
    simp
  | cons d ds ih =>
    intro w
    have later : ∑ i : Fin ds.length, (ds[i] : K) * (b : K) ^ (w - (i + 1 : Nat)) =
        numeral b ds * (b : K) ^ (w - ds.length) := by
      have shifted := ih (w - 1)
      rw [show w - 1 + 1 - (ds.length : Int) = w - ds.length by omega] at shifted
      rw [← shifted]
      refine Finset.sum_congr rfl fun i _ => ?_
      rw [show w - ((i + 1 : Nat) : Int) = w - 1 - (i : Nat) by omega]
    have place : (b : K) ^ ds.length * (b : K) ^ (w - ds.length) = (b : K) ^ w := by
      rw [← zpow_natCast, ← zpow_add₀ nonzero]
      congr 1
      omega
    have first : ∑ i : Fin (d :: ds).length, ((d :: ds)[i] : K) * (b : K) ^ (w - i) =
        d * (b : K) ^ w + ∑ i : Fin ds.length, (ds[i] : K) * (b : K) ^ (w - (i + 1 : Nat)) := by
      refine (Fin.sum_univ_succ _).trans ?_
      congr 1
      simp
    have width : w + 1 - ((d :: ds).length : Int) = w - ds.length := by
      rw [List.length_cons]
      omega
    rw [first, later, numeral_cons, width, Nat.cast_add, Nat.cast_mul, Nat.cast_pow, add_mul,
      mul_assoc, place]

end Positional
