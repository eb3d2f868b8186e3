import Mathlib.Algebra.Group.Nat.Defs
import Mathlib.Algebra.GroupWithZero.Nat
import Mathlib.Algebra.Ring.Int.Defs
import PgMimic.Lib.Positional

/-!
# Integers in a given number of bytes

The most significant byte is in front. A sign is kept in two's complement, so there is room
for half the numbers on either side of zero.
-/

namespace BigEndian

open Positional

/-- The number these bytes stand for. -/
def value (bytes : List UInt8) : Nat := numeral 256 (bytes.map UInt8.toNat)

/-- So many bytes of a number, those in front of them left out. -/
def bytesOf : Nat → Nat → List UInt8
  | 0, _ => []
  | width + 1, n => bytesOf width (n / 256) ++ [UInt8.ofNat n]

/-- The number these bytes stand for in two's complement. -/
def signed (bytes : List UInt8) : Int :=
  if 2 * value bytes < 256 ^ bytes.length then value bytes
  else (value bytes : Int) - 256 ^ bytes.length

def Signed (width : Nat) (n : Int) : Prop := -256 ^ width ≤ 2 * n ∧ 2 * n < 256 ^ width

instance (width : Nat) (n : Int) : Decidable (Signed width n) :=
  inferInstanceAs (Decidable (_ ∧ _))

/-- A number with its sign, if there is room for it. -/
def pack (width : Nat) (n : Int) : Option (List UInt8) :=
  if Signed width n then some (bytesOf width (n % 256 ^ width).toNat) else none

def packUnsigned (width : Nat) (n : Int) : Option (List UInt8) :=
  if 0 ≤ n ∧ n < 256 ^ width then some (bytesOf width n.toNat) else none

/-- There must be as many bytes as are asked for. -/
def unpack (width : Nat) (data : List UInt8) : Option Int :=
  if data.length = width then some (signed data) else none

def unpackUnsigned (width : Nat) (data : List UInt8) : Option Int :=
  if data.length = width then some (value data) else none

theorem length_bytesOf (width n : Nat) : (bytesOf width n).length = width := by
  induction width generalizing n with
  | zero => rfl
  | succ width ih => rw [bytesOf, List.length_append, ih, List.length_singleton]

theorem value_append (bytes : List UInt8) (last : UInt8) :
    value (bytes ++ [last]) = value bytes * 256 + last.toNat := by
  simp [value, numeral_append]

theorem value_bytesOf (width n : Nat) : value (bytesOf width n) = n % 256 ^ width := by
  induction width generalizing n with
  | zero => rw [Nat.pow_zero, Nat.mod_one]; rfl
  | succ width ih =>
    have split : n % (256 * 256 ^ width) = n % 256 + 256 * (n / 256 % 256 ^ width) := Nat.mod_mul
    have size : 256 ^ (width + 1) = 256 * 256 ^ width := Nat.pow_succ'
    rw [bytesOf, value_append, ih, UInt8.toNat_ofNat', size]
    omega

theorem value_lt (bytes : List UInt8) : value bytes < 256 ^ bytes.length := by
  have small : ∀ d ∈ bytes.map UInt8.toNat, d < 256 := by
    intro d inside
    obtain ⟨byte, -, rfl⟩ := List.mem_map.mp inside
    exact byte.toNat_lt
  have bound := numeral_lt (by decide) small
  rwa [List.length_map] at bound

theorem bytesOf_value (bytes : List UInt8) : bytesOf bytes.length (value bytes) = bytes := by
  induction bytes using List.reverseRecOn with
  | nil => rfl
  | append_singleton bytes last ih =>
    have small := last.toNat_lt
    have front : (value bytes * 256 + last.toNat) / 256 = value bytes := by omega
    have behind : UInt8.ofNat (value bytes * 256 + last.toNat) = last := by
      apply UInt8.toNat_inj.mp
      rw [UInt8.toNat_ofNat']
      omega
    rw [List.length_append, List.length_singleton, bytesOf, value_append, front, ih, behind]

/-- Two's complement, for any number of numbers. -/
theorem complement {size n : Int} (low : -size ≤ 2 * n) (high : 2 * n < size) :
    (0 ≤ n ∧ n % size = n) ∨ (n < 0 ∧ n % size = n + size) := by
  rcases Int.lt_or_le n 0 with negative | positive
  · have wrapped : (n + size) % size = n % size := Int.add_emod_right n size
    have inside : (n + size) % size = n + size := Int.emod_eq_of_lt (by omega) (by omega)
    exact .inr ⟨negative, by omega⟩
  · exact .inl ⟨positive, Int.emod_eq_of_lt positive (by omega)⟩

theorem signed_bytesOf {width : Nat} {n : Int} (room : Signed width n) :
    signed (bytesOf width (n % 256 ^ width).toNat) = n := by
  obtain ⟨low, high⟩ := room
  have wrapped := complement low high
  have size : ((256 ^ width : Nat) : Int) = 256 ^ width := Int.natCast_pow 256 width
  have small : (n % 256 ^ width).toNat % 256 ^ width = (n % 256 ^ width).toNat :=
    Nat.mod_eq_of_lt (by omega)
  rw [signed, value_bytesOf, length_bytesOf, small]
  split <;> omega

theorem signed_room (bytes : List UInt8) : Signed bytes.length (signed bytes) := by
  have bound := value_lt bytes
  have size : ((256 ^ bytes.length : Nat) : Int) = 256 ^ bytes.length := Int.natCast_pow 256 _
  rw [Signed, signed]
  split <;> omega

theorem bytesOf_signed (bytes : List UInt8) :
    bytesOf bytes.length (signed bytes % 256 ^ bytes.length).toNat = bytes := by
  have bound := value_lt bytes
  have size : ((256 ^ bytes.length : Nat) : Int) = 256 ^ bytes.length := Int.natCast_pow 256 _
  obtain ⟨low, high⟩ := signed_room bytes
  have wrapped := complement low high
  have kept : (signed bytes % 256 ^ bytes.length).toNat = value bytes := by
    generalize signed bytes % 256 ^ bytes.length = rest at wrapped ⊢
    rw [signed] at wrapped
    split at wrapped <;> omega
  rw [kept, bytesOf_value]

/-- Packing and unpacking undo one another, and refuse what the other does not come from. -/
theorem unpack_eq_some_iff {width : Nat} {data : List UInt8} {n : Int} :
    unpack width data = some n ↔ pack width n = some data := by
  rw [unpack, pack]
  constructor
  · intro read
    split at read
    case isFalse => cases read
    case isTrue long =>
      subst long
      obtain rfl := Option.some.inj read
      rw [if_pos (signed_room data), bytesOf_signed]
  · intro packed
    split at packed
    case isFalse => cases packed
    case isTrue room =>
      obtain rfl := Option.some.inj packed
      rw [if_pos (length_bytesOf _ _), signed_bytesOf room]

theorem unpackUnsigned_eq_some_iff {width : Nat} {data : List UInt8} {n : Int} :
    unpackUnsigned width data = some n ↔ packUnsigned width n = some data := by
  have size : ((256 ^ width : Nat) : Int) = 256 ^ width := Int.natCast_pow 256 width
  rw [unpackUnsigned, packUnsigned]
  constructor
  · intro read
    split at read
    case isFalse => cases read
    case isTrue long =>
      subst long
      obtain rfl := Option.some.inj read
      have bound := value_lt data
      rw [if_pos (by omega), Int.toNat_natCast, bytesOf_value]
  · intro packed
    split at packed
    case isFalse => cases packed
    case isTrue room =>
      obtain rfl := Option.some.inj packed
      rw [if_pos (length_bytesOf _ _), value_bytesOf, Nat.mod_eq_of_lt (by omega)]
      congr 1
      omega

end BigEndian
