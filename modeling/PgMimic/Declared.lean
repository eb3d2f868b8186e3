import Mathlib.Data.Nat.Find
import PgMimic.Copy
import PgMimic.Lib.FreshNames
import PgMimic.Lib.Positional
import PgMimic.Lib.Utf8

/-!
# Tables as a session declares them

A table has columns in an order, a primary key and unique keys over them, and a schema has
tables in an order. The catalog reports an index for every key, under a name made of the
table's and the columns', cut to 63 bytes, with a counter where the name is taken.
-/

namespace PgMimic.Declared

open PgMimic.Copy (Text)
open Positional (digits digitText)

/-! ## Tables and schemas -/

/-- A `Table` as its constructor leaves it. No sequence of Python's is longer than `unique`. -/
structure Table where
  name : Text
  columns : List (Text × Text)
  primaryKey : List Text
  unique : List (List Text)
  named : name ≠ []
  spelled : ∀ column ∈ columns, column.1 ≠ [] ∧ column.2 ≠ []
  distinct : (columns.map Prod.fst).Nodup
  primaryKey_columns : ∀ column ∈ primaryKey, column ∈ columns.map Prod.fst
  primaryKey_once : primaryKey.Nodup
  unique_columns : ∀ key ∈ unique, ∀ column ∈ key, column ∈ columns.map Prod.fst
  unique_once : ∀ key ∈ unique, key.Nodup
  unique_apart : unique.Nodup
  sized : unique.length < 2 ^ 63

/-- A `Schema`: its tables in order. -/
structure Schema where
  tables : List Table
  apart : (tables.map Table.name).Nodup
  sized : tables.length < 2 ^ 63

/-- `_Key`. -/
structure Key where
  table : Text
  columns : List Text
  isPrimary : Bool
deriving DecidableEq

/-- `_declared_keys`. -/
def declaredKeys (table : Table) : List Key :=
  (if table.primaryKey = [] then [] else [⟨table.name, table.primaryKey, true⟩]) ++
    table.unique.map fun columns => ⟨table.name, columns, false⟩

/-! ## The names of keys -/

/-- `text.encode()[:stop].decode(errors="ignore")`: a character that is cut is dropped. -/
def cut (stop : Int) (text : Text) : Text :=
  let bytes := Utf8.encode text
  Utf8.completed (bytes.take (if 0 ≤ stop then stop else bytes.length + stop).toNat)

/-- `str` of a number. -/
def numberText (counter : Nat) : Text := digitText (digits 10 counter)

def stem (key : Key) : Text :=
  if key.isPrimary then key.table ++ "_pkey".toList
  else ['_'].intercalate (key.table :: (key.columns ++ ["key".toList]))

def suffixed (name : Text) (counter : Nat) : Text :=
  cut (63 - (numberText counter).length) name ++ numberText counter

theorem numberText_inj {counter counter' : Nat}
    (same : numberText counter = numberText counter') : counter = counter' := by
  have texts := Positional.digitText_inj (Positional.digits_lt (by omega) counter)
    (Positional.digits_lt (by omega) counter') same
  rw [← Positional.numeral_digits 10 counter, texts, Positional.numeral_digits]

theorem length_numberText {k counter : Nat} (low : 10 ^ k ≤ counter)
    (high : counter < 10 ^ (k + 1)) : (numberText counter).length = k + 1 := by
  have upper := (Positional.length_digits_le (b := 10) (by omega) (k := k + 1) (by omega)).mpr high
  have lower : ¬(digits 10 counter).length ≤ k := by
    intro short
    cases k with
    | zero => exact Positional.digits_ne_nil 10 counter (List.eq_nil_of_length_eq_zero (by omega))
    | succ k =>
      have := (Positional.length_digits_le (b := 10) (by omega) (by omega)).mp short
      omega
  rw [numberText, digitText, List.length_map]
  omega

/-- Counters of one length give different names. -/
theorem suffixed_inj {name : Text} {k counter counter' : Nat}
    (range : 10 ^ k ≤ counter ∧ counter < 10 ^ (k + 1))
    (range' : 10 ^ k ≤ counter' ∧ counter' < 10 ^ (k + 1))
    (same : suffixed name counter = suffixed name counter') : counter = counter' := by
  have lengths := (length_numberText range.1 range.2).trans
    (length_numberText range'.1 range'.2).symm
  exact numberText_inj (List.append_inj' same lengths).2

/-- A free counter comes soon: of one length there are more than names are taken. -/
theorem exists_counter_below (name : Text) {taken : List Text} {k : Nat}
    (few : taken.length < 9 * 10 ^ k) :
    ∃ counter, 10 ^ k ≤ counter ∧ counter < 10 ^ (k + 1) ∧ suffixed name counter ∉ taken := by
  refine FreshNames.exists_free (fun i j low high low' high' same => ?_) ?_
  · exact suffixed_inj ⟨low, high⟩ ⟨low', high'⟩ same
  · rw [pow_succ]
    omega

/-- The loop over the counters ends. -/
theorem exists_counter (name : Text) (taken : List Text) :
    ∃ counter, 1 ≤ counter ∧ suffixed name counter ∉ taken := by
  have few : taken.length < 9 * 10 ^ taken.length := by
    have := Nat.lt_pow_self (show 1 < 10 by omega) (n := taken.length)
    omega
  obtain ⟨counter, low, -, free⟩ := exists_counter_below name few
  exact ⟨counter, (Nat.one_le_pow _ _ (by omega)).trans low, free⟩

/-- So many rounds of the loop `for counter in itertools.count(1)`. -/
def countedName (name : Text) (taken : List Text) : Nat → Nat → Option Text
  | 0, _ => none
  | rounds + 1, counter =>
    if suffixed name counter ∉ taken then some (suffixed name counter)
    else countedName name taken rounds (counter + 1)

/-- `_key_name`: behind a name that is taken comes the first counter that makes it free. -/
def keyName (key : Key) (taken : List Text) : Text :=
  let name := cut 63 (stem key)
  if name ∉ taken then name else suffixed name (Nat.find (exists_counter name taken))

/-- Enough rounds of the loop return, and what they return is the first free name. -/
theorem countedName_eq {name : Text} {taken : List Text} {rounds counter : Nat}
    (free : suffixed name (counter + rounds) ∉ taken)
    (earlier : ∀ i < rounds, suffixed name (counter + i) ∈ taken) :
    countedName name taken (rounds + 1) counter = some (suffixed name (counter + rounds)) := by
  induction rounds generalizing counter with
  | zero => exact if_pos free
  | succ rounds ih =>
    have here : suffixed name counter ∈ taken := earlier 0 (Nat.zero_lt_succ rounds)
    rw [countedName, if_neg (not_not.mpr here), ih, Nat.add_right_comm, Nat.add_assoc]
    · rwa [Nat.add_right_comm, Nat.add_assoc]
    · intro i less
      rw [Nat.add_right_comm, Nat.add_assoc]
      exact earlier (i + 1) (Nat.succ_lt_succ less)

/-- The loop ends, with the first free name. -/
theorem counted_first (name : Text) (taken : List Text) :
    ∃ rounds, countedName name taken rounds 1 =
      some (suffixed name (Nat.find (exists_counter name taken))) := by
  obtain ⟨positive, free⟩ := Nat.find_spec (exists_counter name taken)
  obtain ⟨rounds, same⟩ := Nat.exists_eq_add_of_le positive
  refine ⟨rounds + 1, ?_⟩
  rw [same]
  refine countedName_eq (same ▸ free) fun i less => ?_
  by_contra open_
  exact Nat.find_min (exists_counter name taken) (m := 1 + i) (by omega) ⟨by omega, open_⟩

/-! ## What a key would be named -/

/-- The names a key would take: its own, then those with a counter. -/
def candidates (key : Key) (counter : Nat) : Text :=
  if counter = 0 then cut 63 (stem key) else suffixed (cut 63 (stem key)) counter

/-- A key takes the first of its candidates that is free. -/
theorem keyName_spec (key : Key) (taken : List Text) :
    ∃ counter, keyName key taken = candidates key counter ∧
      candidates key counter ∉ taken ∧ ∀ earlier < counter, candidates key earlier ∈ taken := by
  by_cases free : cut 63 (stem key) ∉ taken
  · exact ⟨0, if_pos free, free, nofun⟩
  · obtain ⟨positive, open_⟩ := Nat.find_spec (exists_counter (cut 63 (stem key)) taken)
    have counted : ∀ counter, 1 ≤ counter →
        candidates key counter = suffixed (cut 63 (stem key)) counter :=
      fun counter some => if_neg (by omega)
    refine ⟨Nat.find (exists_counter (cut 63 (stem key)) taken), ?_, ?_, fun earlier less => ?_⟩
    · rw [counted _ positive]
      exact if_neg free
    · rw [counted _ positive]
      exact open_
    · cases earlier with
      | zero => exact not_not.mp free
      | succ earlier =>
        rw [counted _ (by omega)]
        by_contra open'
        exact Nat.find_min (exists_counter (cut 63 (stem key)) taken) less ⟨by omega, open'⟩

/-! ## Its length -/

theorem encode_append (text text' : Text) :
    Utf8.encode (text ++ text') = Utf8.encode text ++ Utf8.encode text' :=
  List.flatMap_append

theorem length_cut (text : Text) {stop : Int} (positive : 0 ≤ stop) :
    ((Utf8.encode (cut stop text)).length : Int) ≤ stop := by
  have whole := congrArg List.length (Utf8.encode_completed ((Utf8.encode text).take stop.toNat))
  rw [List.length_append, List.length_take] at whole
  unfold cut
  dsimp only
  rw [if_pos positive]
  omega

theorem length_encode_numberText (counter : Nat) :
    (Utf8.encode (numberText counter)).length ≤ (numberText counter).length := by
  refine Utf8.length_encode_le_iff.mpr fun c member => ?_
  obtain ⟨digit, listed, rfl⟩ := List.mem_map.mp member
  have small := Positional.digits_lt (by omega) counter digit listed
  have ascii : ∀ digit < 10, digit.digitChar.toNat < 128 := by decide
  exact ascii digit small

theorem length_suffixed {name : Text} {counter : Nat} (short : counter < 10 ^ 62) :
    (Utf8.encode (suffixed name counter)).length ≤ 63 := by
  have few : (numberText counter).length ≤ 62 := by
    rw [numberText, digitText, List.length_map]
    exact (Positional.length_digits_le (by omega) (by omega)).mpr short
  have room : (0 : Int) ≤ 63 - (numberText counter).length := by omega
  have front := length_cut name room
  have back := length_encode_numberText counter
  rw [suffixed, encode_append, List.length_append]
  omega

/-- The first free counter has few digits as long as no huge number of names is taken. -/
theorem length_keyName (key : Key) {taken : List Text} (few : taken.length < 9 * 10 ^ 61) :
    (Utf8.encode (keyName key taken)).length ≤ 63 := by
  unfold keyName
  dsimp only
  split
  · have := length_cut (stem key) (show (0 : Int) ≤ 63 by omega)
    omega
  · obtain ⟨counter, low, high, free⟩ := exists_counter_below (cut 63 (stem key)) few
    have least : Nat.find (exists_counter (cut 63 (stem key)) taken) ≤ counter :=
      Nat.find_min' _ ⟨(Nat.one_le_pow _ _ (by omega)).trans low, free⟩
    exact length_suffixed (least.trans_lt high)

end PgMimic.Declared
