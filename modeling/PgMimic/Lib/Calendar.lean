import Mathlib.Algebra.BigOperators.Group.List.Basic
import Mathlib.Algebra.GroupWithZero.Nat
import Mathlib.Algebra.Order.Group.Nat
import Mathlib.Data.List.GetD

/-!
# Days in months in years

Blocks of given lengths one behind another: a position falls into one block, and stands
somewhere in it. A calendar is this twice, the days of a year in its months and all days in
their years, so its dates are numbered without a gap and no number is a date twice. Of the
Gregorian calendar nothing is used but how long its months are.
-/

namespace Blocks

variable {ls : List Nat} {k r n : Nat}

/-- The block that a position falls into, and where it stands there. -/
def locate : List Nat → Nat → Option (Nat × Nat)
  | [], _ => none
  | l :: ls, n => if n < l then some (0, n) else (locate ls (n - l)).map fun (k, r) => (k + 1, r)

/-- The position of what stands at `r` in block `k`. -/
def position (ls : List Nat) (k r : Nat) : Nat := (ls.take k).sum + r

theorem position_cons (l : Nat) (ls : List Nat) (k r : Nat) :
    position (l :: ls) (k + 1) r = l + position ls k r := by
  rw [position, List.take_succ_cons, List.sum_cons, Nat.add_assoc]
  rfl

/-- A block has a place for whatever is below its length, and there is none behind the last. -/
theorem locate_eq_some_iff :
    locate ls n = some (k, r) ↔ r < ls.getD k 0 ∧ position ls k r = n := by
  induction ls generalizing n k with
  | nil => simp [locate]
  | cons l ls ih =>
    rw [locate]
    cases k with
    | zero =>
      by_cases inside : n < l
      · rw [if_pos inside]
        simp only [Option.some.injEq, Prod.mk.injEq, true_and, position, List.take_zero,
          List.sum_nil, Nat.zero_add, List.getD_cons_zero]
        omega
      · rw [if_neg inside]
        simp only [Option.map_eq_some_iff, Prod.mk.injEq, position, List.take_zero, List.sum_nil,
          List.getD_cons_zero]
        constructor
        · rintro ⟨p, -, beyond, -⟩
          omega
        · omega
    | succ k =>
      rw [List.getD_cons_succ, position_cons]
      by_cases inside : n < l
      · rw [if_pos inside]
        simp only [Option.some.injEq, Prod.mk.injEq]
        omega
      · rw [if_neg inside]
        have moved : position ls k r = n - l ↔ l + position ls k r = n := by omega
        rw [← moved, ← ih]
        simp only [Option.map_eq_some_iff, Prod.mk.injEq, Nat.add_right_cancel_iff]
        constructor
        · rintro ⟨p, found, rfl, rfl⟩
          exact found
        · intro found
          exact ⟨(k, r), found, rfl, rfl⟩

theorem locate_position (inside : r < ls.getD k 0) : locate ls (position ls k r) = some (k, r) :=
  locate_eq_some_iff.mpr ⟨inside, rfl⟩

theorem locate_isSome (inside : n < ls.sum) : (locate ls n).isSome = true := by
  induction ls generalizing n with
  | nil => simp at inside
  | cons l ls ih =>
    rw [List.sum_cons] at inside
    rw [locate]
    split
    · rfl
    · rw [Option.isSome_map]
      exact ih (by omega)

theorem position_lt_sum (inside : r < ls.getD k 0) : position ls k r < ls.sum := by
  induction ls generalizing k with
  | nil => simp at inside
  | cons l ls ih =>
    rw [List.sum_cons]
    cases k with
    | zero =>
      simp only [List.getD_cons_zero] at inside
      simp only [position, List.take_zero, List.sum_nil]
      omega
    | succ k =>
      have within := ih (by simpa using inside)
      rw [position_cons]
      omega

end Blocks

namespace Calendar

open Blocks

/-! ## The Gregorian calendar -/

def isLeap (year : Nat) : Bool := year % 4 = 0 && (year % 100 ≠ 0 || year % 400 = 0)

def monthLengths (year : Nat) : List Nat :=
  [31, if isLeap year then 29 else 28, 31, 30, 31, 30, 31, 31, 30, 31, 30, 31]

/-- How long the years are from the year 1 to the last. -/
def yearLengths (last : Nat) : List Nat :=
  (List.range last).map fun before => (monthLengths (before + 1)).sum

/-- A day of the years from 1 to `last`. -/
@[ext]
structure Date (last : Nat) where
  year : Nat
  month : Nat
  day : Nat
  year_range : 1 ≤ year ∧ year ≤ last
  month_pos : 1 ≤ month
  day_range : 1 ≤ day ∧ day ≤ (monthLengths year).getD (month - 1) 0
deriving DecidableEq

variable {last : Nat}

namespace Date

/-- The days of its year before a date. -/
def inYear (d : Date last) : Nat := position (monthLengths d.year) (d.month - 1) (d.day - 1)

/-- The days before a date, from the first of January of the year 1. -/
def number (d : Date last) : Nat := position (yearLengths last) (d.year - 1) d.inYear

theorem day_place (d : Date last) : d.day - 1 < (monthLengths d.year).getD (d.month - 1) 0 := by
  have range := d.day_range
  omega

theorem yearLengths_getD {k : Nat} (inside : k < last) :
    (yearLengths last).getD k 0 = (monthLengths (k + 1)).sum := by
  rw [yearLengths, List.getD_eq_getElem _ _ (by simpa using inside)]
  simp

theorem year_place (d : Date last) : d.inYear < (yearLengths last).getD (d.year - 1) 0 := by
  have range := d.year_range
  have same : d.year - 1 + 1 = d.year := by omega
  rw [yearLengths_getD (by omega), same]
  exact position_lt_sum d.day_place

end Date

theorem place_of_locate {ls : List Nat} {n : Nat} {p : Nat × Nat} (found : locate ls n = some p) :
    p.2 < ls.getD p.1 0 :=
  (locate_eq_some_iff.mp found).1

theorem lt_last {k r : Nat} (inside : r < (yearLengths last).getD k 0) : k < last := by
  by_contra beyond
  rw [List.getD_eq_default _ _ (by simp [yearLengths]; omega)] at inside
  omega

/-- The date with so many days before it, up to the last year. -/
def ofNumber (last n : Nat) : Option (Date last) :=
  match years : locate (yearLengths last) n with
  | none => none
  | some (before, rest) =>
    match months : locate (monthLengths (before + 1)) rest with
    | none => none
    | some (earlier, day) => some {
        year := before + 1
        month := earlier + 1
        day := day + 1
        year_range := ⟨by omega, lt_last (place_of_locate years)⟩
        month_pos := by omega
        day_range := ⟨by omega, place_of_locate months⟩ }

theorem number_of_ofNumber {n : Nat} {d : Date last} (found : ofNumber last n = some d) :
    d.number = n := by
  rw [ofNumber] at found
  split at found
  · cases found
  · rename_i before rest years
    split at found
    · cases found
    · rename_i earlier day months
      rw [← Option.some.inj found]
      have inYear := (locate_eq_some_iff.mp months).2
      have number := (locate_eq_some_iff.mp years).2
      simpa [Date.number, Date.inYear, inYear] using number

theorem ofNumber_isSome {n : Nat} (inside : n < (yearLengths last).sum) :
    (ofNumber last n).isSome = true := by
  obtain ⟨⟨before, rest⟩, years⟩ := Option.isSome_iff_exists.mp (locate_isSome inside)
  have fits := place_of_locate years
  rw [Date.yearLengths_getD (lt_last fits)] at fits
  have months := locate_isSome fits
  rw [ofNumber]
  split
  · rename_i none_
    rw [years] at none_
    cases none_
  · rename_i before' rest' years'
    rw [years] at years'
    cases years'
    split
    · rename_i none_
      rw [none_] at months
      cases months
    · rfl

theorem number_lt (d : Date last) : d.number < (yearLengths last).sum :=
  position_lt_sum d.year_place

/-- No two dates have as many days before them. -/
theorem Date.number_inj {d e : Date last} (same : d.number = e.number) : d = e := by
  have years := locate_position d.year_place
  rw [← Date.number, same, Date.number, locate_position e.year_place] at years
  have year : e.year - 1 = d.year - 1 := congrArg Prod.fst (Option.some.inj years)
  have inYear : e.inYear = d.inYear := congrArg Prod.snd (Option.some.inj years)
  have year' : d.year = e.year := by
    have range := d.year_range
    have range' := e.year_range
    omega
  have months := locate_position d.day_place
  rw [← Date.inYear, ← inYear, Date.inYear, year', locate_position e.day_place] at months
  have month : e.month - 1 = d.month - 1 := congrArg Prod.fst (Option.some.inj months)
  have day : e.day - 1 = d.day - 1 := congrArg Prod.snd (Option.some.inj months)
  have first := d.month_pos
  have first' := e.month_pos
  have range := d.day_range
  have range' := e.day_range
  exact Date.ext year' (by omega) (by omega)

/-- Every number of days is that of one date, as far as the years go. -/
theorem ofNumber_eq_some_iff {n : Nat} {d : Date last} :
    ofNumber last n = some d ↔ d.number = n := by
  refine ⟨number_of_ofNumber, ?_⟩
  rintro rfl
  obtain ⟨e, found⟩ := Option.isSome_iff_exists.mp (ofNumber_isSome (number_lt d))
  rw [found, Date.number_inj (number_of_ofNumber found)]

theorem exists_number_iff {n : Nat} :
    (∃ d : Date last, d.number = n) ↔ n < (yearLengths last).sum := by
  constructor
  · rintro ⟨d, rfl⟩
    exact number_lt d
  · intro inside
    obtain ⟨d, found⟩ := Option.isSome_iff_exists.mp (ofNumber_isSome inside)
    exact ⟨d, number_of_ofNumber found⟩

end Calendar
