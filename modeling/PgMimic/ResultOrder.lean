import PgMimic.Lib.Orders

/-!
# The order of a SELECT DISTINCT

The executor sorts the rows of a SELECT DISTINCT by its select list, so its ORDER BY is
taken off the query and the rows are sorted in Python, by a comparison that knows NULL.
-/

namespace PgMimic.Tables

open Std

section Rows

variable {ι : Type} {V : ι → Type}

/-- The values of a row by their positions, each in the type of its column. -/
abbrev ResultRow (V : ι → Type) := ∀ position, Option (V position)

structure SortKey (ι : Type) where
  position : ι
  descending : Bool
  nullsFirst : Bool
deriving DecidableEq

variable [∀ position, Ord (V position)]

/-- `compare`, with what Python makes of `==` and `<` on the values of a column. -/
def compareRows (left right : ResultRow V) : List (SortKey ι) → Int
  | [] => 0
  | key :: keys =>
    match left key.position, right key.position with
    | none, none => compareRows left right keys
    | none, some _ => if true = key.nullsFirst then -1 else 1
    | some _, none => if false = key.nullsFirst then -1 else 1
    | some a, some b =>
      if compare a b = .eq then compareRows left right keys
      else (if compare a b = .lt then -1 else 1) * (if key.descending then -1 else 1)

/-- `_sorted_rows`. `sorted` puts no row in front of one that it is not less than. -/
def sortedRows (rows : List (ResultRow V)) (keys : List (SortKey ι)) : List (ResultRow V) :=
  rows.mergeSort fun left right => !decide (compareRows right left keys < 0)

/-! ## What ORDER BY asks for -/

/-- One key puts the first value in front of the second. -/
def SortKey.Before (key : SortKey ι) : Option (V key.position) → Option (V key.position) → Prop
  | none, none => False
  | none, some _ => key.nullsFirst = true
  | some _, none => key.nullsFirst = false
  | some a, some b => if key.descending then compare b a = .lt else compare a b = .lt

def SortKey.Tied (key : SortKey ι) : Option (V key.position) → Option (V key.position) → Prop
  | none, none => True
  | some a, some b => compare a b = .eq
  | _, _ => False

/-- The first key that tells the rows apart puts the first row in front, or none does. -/
def Ordered (left right : ResultRow V) : List (SortKey ι) → Prop
  | [] => True
  | key :: keys => key.Before (left key.position) (right key.position) ∨
      key.Tied (left key.position) (right key.position) ∧ Ordered left right keys

instance (key : SortKey ι) (a b : Option (V key.position)) : Decidable (key.Tied a b) :=
  match a, b with
  | none, none => inferInstanceAs (Decidable True)
  | some a, some b => inferInstanceAs (Decidable (compare a b = .eq))
  | none, some _ => inferInstanceAs (Decidable False)
  | some _, none => inferInstanceAs (Decidable False)

/-- Every key ties the rows. -/
def Equal (keys : List (SortKey ι)) (left right : ResultRow V) : Prop :=
  ∀ key ∈ keys, key.Tied (left key.position) (right key.position)

instance (keys : List (SortKey ι)) (left right : ResultRow V) : Decidable (Equal keys left right) :=
  inferInstanceAs (Decidable (∀ key ∈ keys, key.Tied (left key.position) (right key.position)))

/-- The result of an ORDER BY. -/
structure SortedAsAsked (keys : List (SortKey ι)) (rows result : List (ResultRow V)) : Prop where
  permutation : result.Perm rows
  ordered : result.Pairwise fun left right => Ordered left right keys
  stable : ∀ row, result.filter (Equal keys row ·) = rows.filter (Equal keys row ·)

/-! ## The comparison is an order with ties -/

/-- What one key makes of two rows. -/
def SortKey.order (key : SortKey ι) (left right : ResultRow V) : Ordering :=
  Orders.nullable key.nullsFirst (Orders.directed key.descending compare)
    (left key.position) (right key.position)

def rowOrder (keys : List (SortKey ι)) : ResultRow V → ResultRow V → Ordering :=
  Orders.lexicographic (keys.map SortKey.order)

theorem SortKey.order_eq_lt_iff (key : SortKey ι) (left right : ResultRow V) :
    key.order left right = .lt ↔ key.Before (left key.position) (right key.position) := by
  rw [SortKey.order]
  cases left key.position with
  | none =>
    cases right key.position with
    | none => exact iff_of_false nofun id
    | some b => cases h : key.nullsFirst <;> simp [Orders.nullable, SortKey.Before, h]
  | some a =>
    cases right key.position with
    | none => cases h : key.nullsFirst <;> simp [Orders.nullable, SortKey.Before, h]
    | some b =>
      simp only [Orders.nullable, Orders.directed, SortKey.Before]
      cases key.descending <;> exact Iff.rfl

theorem rowOrder_cons (key : SortKey ι) (keys : List (SortKey ι)) (left right : ResultRow V) :
    rowOrder (key :: keys) left right = (key.order left right).then (rowOrder keys left right) :=
  rfl

section Ordered

variable [∀ position, TransOrd (V position)]

instance (key : SortKey ι) : TransCmp (key.order (V := V)) :=
  Orders.reading_trans (fun row : ResultRow V => row key.position) _

instance (keys : List (SortKey ι)) : TransCmp (rowOrder keys (V := V)) := by
  apply Orders.lexicographic_trans
  intro cmp member
  obtain ⟨key, -, rfl⟩ := List.mem_map.mp member
  infer_instance

theorem SortKey.order_eq_eq_iff (key : SortKey ι) (left right : ResultRow V) :
    key.order left right = .eq ↔ key.Tied (left key.position) (right key.position) := by
  rw [SortKey.order]
  cases left key.position with
  | none =>
    cases right key.position with
    | none => simp [Orders.nullable, SortKey.Tied]
    | some b => cases h : key.nullsFirst <;> simp [Orders.nullable, SortKey.Tied]
  | some a =>
    cases right key.position with
    | none => cases h : key.nullsFirst <;> simp [Orders.nullable, SortKey.Tied]
    | some b =>
      simp only [Orders.nullable, Orders.directed, SortKey.Tied]
      split
      · exact OrientedCmp.eq_comm
      · rfl

/-- The comparison is negative where the first key that tells the rows apart says so. -/
theorem compareRows_neg_iff (left right : ResultRow V) (keys : List (SortKey ι)) :
    compareRows left right keys < 0 ↔ rowOrder keys left right = .lt := by
  induction keys with
  | nil => simp [compareRows, rowOrder, Orders.lexicographic]
  | cons key keys ih =>
    rw [compareRows, rowOrder_cons, Ordering.then_eq_lt, key.order_eq_lt_iff, key.order_eq_eq_iff]
    cases left key.position with
    | none =>
      cases right key.position with
      | none => simpa [SortKey.Before, SortKey.Tied] using ih
      | some b => cases h : key.nullsFirst <;> simp [SortKey.Before, SortKey.Tied, h]
    | some a =>
      cases right key.position with
      | none => cases h : key.nullsFirst <;> simp [SortKey.Before, SortKey.Tied, h]
      | some b =>
        simp only [SortKey.Before, SortKey.Tied]
        have swapped : compare b a = (compare a b).swap := OrientedOrd.eq_swap
        rw [swapped]
        cases compare a b with
        | eq => simpa using ih
        | lt => cases key.descending <;> simp
        | gt => cases key.descending <;> simp

theorem rowOrder_isLE_iff (keys : List (SortKey ι)) (left right : ResultRow V) :
    (rowOrder keys left right).isLE = true ↔ Ordered left right keys := by
  induction keys with
  | nil => exact iff_of_true rfl trivial
  | cons key keys ih =>
    rw [rowOrder_cons, Ordering.isLE_then_iff_or, key.order_eq_lt_iff, key.order_eq_eq_iff, ih]
    rfl

theorem rowOrder_eq_iff (keys : List (SortKey ι)) (left right : ResultRow V) :
    rowOrder keys left right = .eq ↔ Equal keys left right := by
  induction keys with
  | nil => exact iff_of_true rfl fun key member => absurd member List.not_mem_nil
  | cons key keys ih =>
    rw [rowOrder_cons, Ordering.then_eq_eq, key.order_eq_eq_iff, ih, Equal, Equal,
      List.forall_mem_cons]

/-- No row is put in front of one that it is not less than. -/
theorem sortedRows_eq (rows : List (ResultRow V)) (keys : List (SortKey ι)) :
    sortedRows rows keys = Orders.sort (rowOrder keys) rows := by
  have same : ∀ left right : ResultRow V,
      (!decide (compareRows right left keys < 0)) = (rowOrder keys left right).isLE := by
    intro left right
    have swapped : rowOrder keys right left = (rowOrder keys left right).swap :=
      @OrientedCmp.eq_swap _ (rowOrder keys) _ right left
    cases h : rowOrder keys left right <;> simp [compareRows_neg_iff, swapped, h]
  rw [sortedRows, Orders.sort]
  simp only [same]

/-- The rows come back in the order that was asked for, those it does not tell apart as they
were. -/
theorem sortedRows_as_asked (rows : List (ResultRow V)) (keys : List (SortKey ι)) :
    SortedAsAsked keys rows (sortedRows rows keys) := by
  rw [sortedRows_eq]
  refine ⟨Orders.sort_perm _ rows, ?_, fun row => ?_⟩
  · refine (Orders.sort_pairwise (rowOrder keys) rows).imp fun {left right} le => ?_
    exact (rowOrder_isLE_iff keys left right).mp le
  · have stable := Orders.sort_stable (rowOrder keys) rows row
    simpa only [rowOrder_eq_iff] using stable

end Ordered
end Rows

/-- A row of two numbers. -/
def numbers (a b : Option Nat) : ResultRow fun _ : Bool => Nat
  | false => a
  | true => b

/-- The first column descending with NULLs last, the second ascending with NULLs first. -/
theorem nulls_as_asked :
    SortedAsAsked [⟨false, true, false⟩, ⟨true, false, true⟩]
      [numbers none (some 1), numbers (some 2) (some 5), numbers (some 3) none,
        numbers (some 2) none]
      (sortedRows [numbers none (some 1), numbers (some 2) (some 5), numbers (some 3) none,
        numbers (some 2) none] [⟨false, true, false⟩, ⟨true, false, true⟩]) :=
  sortedRows_as_asked _ _

end PgMimic.Tables
