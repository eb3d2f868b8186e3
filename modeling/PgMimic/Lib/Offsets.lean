import Mathlib.Data.List.Basic
import Mathlib.Data.List.TakeDrop

/-!
# Reading a byte string by offset

A reader keeps an offset into a byte string and moves it past what it has read.
Offsets are integers: a negative one counts from the end, as indices do in Python. A
slice is cut to what is there, a fixed-width read is refused where it does not fit.
`Stands` says what is still to come at an offset, and turns both into `take`.
-/

namespace Offsets

universe u

variable {α : Type u}

/-- The position a bound of a slice stands for. -/
def bound (length : Nat) (i : Int) : Nat :=
  if i < 0 then (i + length).toNat else min i.toNat length

/-- `data[start:stop]`. -/
def slice (data : List α) (start stop : Int) : List α :=
  (data.take (bound data.length stop)).drop (bound data.length start)

/-- The elements a `struct` of this width reads, unless they cross an end of the data. -/
def unpackFrom (width : Nat) (data : List α) (offset : Int) : Option (List α) :=
  if offset < 0 then
    if 0 < offset + width ∨ offset + data.length < 0 then none
    else some ((data.drop (offset + data.length).toNat).take width)
  else if offset + width ≤ data.length then some ((data.drop offset.toNat).take width)
  else none

/-- `rest` is what follows the offset. -/
def Stands (data : List α) (offset : Int) (rest : List α) : Prop :=
  ∃ front, data = front ++ rest ∧ offset = front.length

theorem stands_start (data : List α) : Stands data 0 data := ⟨[], rfl, rfl⟩

namespace Stands

variable {data front rest : List α} {offset : Int}

theorem advance (h : Stands data offset (front ++ rest)) :
    Stands data (offset + front.length) rest := by
  obtain ⟨before, rfl, rfl⟩ := h
  refine ⟨before ++ front, by rw [List.append_assoc], ?_⟩
  rw [List.length_append]
  omega

theorem advance_drop (h : Stands data offset rest) {n : Nat} (inside : n ≤ rest.length) :
    Stands data (offset + n) (rest.drop n) := by
  have width : (rest.take n).length = n := List.length_take_of_le inside
  have split : Stands data offset (rest.take n ++ rest.drop n) := by
    rwa [List.take_append_drop]
  have moved := split.advance
  rwa [width] at moved

theorem unpackFrom (h : Stands data offset rest) (width : Nat) :
    unpackFrom width data offset =
      if width ≤ rest.length then some (rest.take width) else none := by
  obtain ⟨before, rfl, rfl⟩ := h
  have nonneg : ¬ ((before.length : Int) < 0) := by omega
  rw [Offsets.unpackFrom, if_neg nonneg, Int.toNat_natCast, List.drop_left, List.length_append]
  by_cases inside : width ≤ rest.length
  · rw [if_pos inside, if_pos (by omega)]
  · rw [if_neg inside, if_neg (by omega)]

theorem slice (h : Stands data offset rest) (n : Nat) :
    slice data offset (offset + n) = rest.take n := by
  obtain ⟨before, rfl, rfl⟩ := h
  have start : bound (before ++ rest).length before.length = before.length := by
    rw [bound, if_neg (by omega), Int.toNat_natCast, List.length_append]
    omega
  have stop : bound (before ++ rest).length (before.length + n) =
      before.length + min n rest.length := by
    rw [bound, if_neg (by omega), List.length_append]
    omega
  rw [Offsets.slice, start, stop, List.take_length_add_append, List.drop_left]
  by_cases inside : n ≤ rest.length
  · rw [Nat.min_eq_left inside]
  · rw [Nat.min_eq_right (by omega), List.take_length, List.take_of_length_le (by omega)]

end Stands

/-- Nothing is read where fewer elements are left, the offset past the end included. -/
theorem unpackFrom_of_beyond {data : List α} {offset : Int} {width : Nat} (nonneg : 0 ≤ offset)
    (beyond : (data.length : Int) < offset + width) : unpackFrom width data offset = none := by
  rw [unpackFrom, if_neg (by omega), if_neg (by omega)]

/-- What is read ends inside the data. -/
theorem within_of_unpackFrom {data front : List α} {offset : Int} {width : Nat}
    (h : unpackFrom width data offset = some front) : offset + width ≤ data.length := by
  rw [unpackFrom] at h
  split_ifs at h with negative crosses inside
  · omega
  · exact inside

section Index

variable [DecidableEq α] {a : α} {l rest front : List α}

theorem idxOf?_of_split (absent : a ∉ front) :
    (front ++ a :: rest).idxOf? a = some front.length := by
  induction front with
  | nil => simp [List.idxOf?_cons]
  | cons b front ih =>
    rw [List.mem_cons, not_or] at absent
    rw [List.cons_append, List.idxOf?_cons, ih absent.2]
    simp [Ne.symm absent.1]

theorem split_of_idxOf? {i : Nat} (h : l.idxOf? a = some i) :
    ∃ front rest, l = front ++ a :: rest ∧ a ∉ front ∧ i = front.length := by
  induction l generalizing i with
  | nil => cases h
  | cons b l ih =>
    rw [List.idxOf?_cons] at h
    by_cases here : b = a
    · subst here
      simp only [beq_self_eq_true, if_true, Option.some.injEq] at h
      exact ⟨[], l, rfl, List.not_mem_nil, h.symm⟩
    · simp only [beq_iff_eq, here, if_false] at h
      obtain ⟨j, found, rfl⟩ := Option.map_eq_some_iff.mp h
      obtain ⟨front, rest, rfl, absent, rfl⟩ := ih found
      refine ⟨b :: front, rest, rfl, ?_, rfl⟩
      rw [List.mem_cons, not_or]
      exact ⟨Ne.symm here, absent⟩

end Index

end Offsets
