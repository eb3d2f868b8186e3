import PgMimic.ExecuteArguments
import PgMimic.ValueRefusals

/-!
# What is shown is read back

A value is shown as a text that is read as the same value. An integer with a unit is shown
in the largest unit of the family that divides it, and read back in the parameter's own.
Nothing is rounded on the way in exact arithmetic.
-/

namespace PgMimic.SettingsValues

open PgMimic.Copy (Text)
open PgMimic.Protocols (strip_plain)
open PgMimic.Patterns (isSpace_of_printed isDigit_range)
open Positional (digits digitText digitChar_small digits_lt digits_ne_nil)

/-- No result is rounded, and `float` reads what `str` writes of an integer. -/
structure ExactArithmetic (f : Arithmetic) : Prop where
  round : ∀ q, f.round q = .finite q
  ofText : ∀ n, f.ofText (intText n) = some (.finite n)

/-- How an integer is shown: on its own, or in the largest unit that divides it. -/
def ShownInLargestUnit (entry : Entry) (n : Int) (shown : Text) : Prop :=
  match entry.units with
  | none => shown = intText n
  | some (own, family) =>
    if n = 0 then shown = intText n
    else ∃ unit ∈ family, ∃ count : Int, n * sizeOf family own = count * unit.2 ∧
      shown = intText count ++ unit.1 ∧
      ∀ unit' ∈ family, (unit'.2 : Int) ∣ n * sizeOf family own → unit'.2 ≤ unit.2

/-! ## The text of an integer -/

theorem intText_plain (n : Int) : ∀ c ∈ intText n, c = '-' ∨ c.isDigit = true := by
  have written : ∀ c ∈ digitText (digits 10 n.natAbs), c.isDigit = true := by
    intro c member
    obtain ⟨d, inside, rfl⟩ := List.mem_map.mp member
    exact (digitChar_small (digits_lt (by omega) _ d inside)).2
  intro c member
  unfold intText at member
  split at member
  · rcases List.mem_cons.mp member with rfl | member
    · exact Or.inl rfl
    · exact Or.inr (written c member)
  · exact Or.inr (written c member)

theorem intText_unspaced (n : Int) : ∀ c ∈ intText n, isSpace c = false := by
  intro c member
  rcases intText_plain n c member with rfl | digit
  · decide
  · have := isDigit_range digit
    exact isSpace_of_printed (by omega)

/-- The last character of an integer's text is a digit. -/
theorem intText_last (n : Int) : ∃ front d, intText n = front ++ [d] ∧ d.isDigit = true := by
  have some_ : digitText (digits 10 n.natAbs) ≠ [] := fun none =>
    digits_ne_nil 10 n.natAbs (List.map_eq_nil_iff.mp none)
  have last := (digitText (digits 10 n.natAbs)).getLast_mem some_
  have split := List.dropLast_append_getLast some_
  obtain ⟨d, inside, same⟩ := List.mem_map.mp last
  have digit : ((digitText (digits 10 n.natAbs)).getLast some_).isDigit = true := by
    rw [← same]
    exact (digitChar_small (digits_lt (by omega) _ d inside)).2
  unfold intText
  split_ifs
  · refine ⟨'-' :: (digitText (digits 10 n.natAbs)).dropLast, _, ?_, digit⟩
    rw [List.cons_append, split]
  · exact ⟨_, _, split.symm, digit⟩

/-! ## The text of a unit -/

/-- A text that can stand behind a number: letters only. -/
def Lettered (text : Text) : Prop := ∀ c ∈ text, 65 ≤ c.toNat ∧ c.toNat ≤ 122

theorem lettered_unit {family : Family} (known : family = memoryUnits ∨ family = timeUnits) :
    ∀ unit ∈ family, Lettered unit.1 ∧ unit.1 ≠ [] := by
  rcases known with rfl | rfl
  · simp [Lettered, memoryUnits]
  · simp [Lettered, timeUnits]

section Split

variable (t : ValueTables)

theorem isSuffix_letter {c : Char} (letter : 65 ≤ c.toNat ∧ c.toNat ≤ 122) :
    isSuffix t c = true := by
  have notDigit : c.isDigit = false := by
    refine Bool.eq_false_iff.mpr fun digit => ?_
    have := isDigit_range digit
    omega
  have notDot : c ≠ '.' := by
    rintro rfl
    exact absurd letter (by decide)
  rw [isSuffix, t.isDigit_ascii c (by omega), notDigit]
  simp [notDot]

theorem isSuffix_digit {c : Char} (digit : c.isDigit = true) : isSuffix t c = false := by
  have := isDigit_range digit
  rw [isSuffix, t.isDigit_ascii c (by omega), digit]
  rfl

/-- A number and the unit behind it are told apart. -/
theorem splitSuffix_number (n : Int) {unit : Text} (lettered : Lettered unit) :
    splitSuffix t (intText n ++ unit) = (intText n, unit) := by
  obtain ⟨front, d, split, digit⟩ := intText_last n
  have number : (intText n ++ unit).rdropWhile (isSuffix t) = intText n := by
    rw [Trim.rdropWhile_blank _ fun c member => isSuffix_letter t (lettered c member)]
    refine Trim.rdropWhile_solid fun c last => ?_
    rw [split, List.getLast?_concat] at last
    obtain rfl := Option.some.inj last
    exact isSuffix_digit t digit
  have rest : (intText n ++ unit).rtakeWhile (isSuffix t) = unit := by
    have whole := List.rdropWhile_append_rtakeWhile (p := isSuffix t) (l := intText n ++ unit)
    rw [number] at whole
    exact List.append_cancel_left whole
  unfold splitSuffix
  rw [number, rest, strip_plain (intText_unspaced n),
    strip_plain fun c member => isSpace_of_printed (by have := lettered c member; omega)]

end Split

/-! ## Integers -/

section Integers

variable (t : ValueTables) {f : Arithmetic} (name : Text) {entry : Entry}

theorem lookup_unit {family : Family} (known : family = memoryUnits ∨ family = timeUnits) :
    ∀ unit ∈ family, family.lookup unit.1 = some unit.2 := by
  rcases known with rfl | rfl
  · decide
  · decide

theorem strip_number (n : Int) {unit : Text} (lettered : Lettered unit) :
    Endpoint.strip (intText n ++ unit) = intText n ++ unit := by
  refine strip_plain fun c member => ?_
  rcases List.mem_append.mp member with member | member
  · exact intText_unspaced n c member
  · have := lettered c member
    exact isSpace_of_printed (by omega)

theorem inOwnUnits_plain (exact' : ExactArithmetic f) (n : Int) :
    inOwnUnits t f name (intText n) entry = .ok (.finite n) := by
  have split := splitSuffix_number t n (show Lettered [] from nofun)
  rw [List.append_nil] at split
  unfold inOwnUnits
  rw [split]
  simp only [exact'.ofText, if_true]

theorem inOwnUnits_unit (exact' : ExactArithmetic f) {own : Text} {family : Family}
    (units : entry.units = some (own, family)) {unit : Text × Nat} (member : unit ∈ family)
    {n count : Int} (same : n * sizeOf family own = count * unit.2) :
    inOwnUnits t f name (intText count ++ unit.1) entry = .ok (.finite n) := by
  obtain ⟨known, -⟩ := familyOf_cases (units_eq_some units).2
  obtain ⟨lettered, some_⟩ := lettered_unit known unit member
  have size : (sizeOf family own : ℚ) ≠ 0 := by exact_mod_cast (sizeOf_pos units).ne'
  have scaled : ((count : ℚ) * unit.2) / sizeOf family own = n := by
    rw [div_eq_iff size]
    exact_mod_cast same.symm
  unfold inOwnUnits
  rw [splitSuffix_number t count lettered]
  simp only [exact'.ofText, if_neg some_, units, lookup_unit known unit member, mul, div,
    exact'.round, scaled]

/-- A text that is `n` in the parameter's unit is read as `n`. -/
theorem parseInteger_of_units (allowed : entry.Allows (.number (.int n))) {text : Text}
    (bare : Endpoint.strip text = text)
    (units : inOwnUnits t f name text entry = .ok (.finite n)) :
    parseInteger t f name text entry = .ok (.number (.int n)) := by
  obtain ⟨-, ⟨low, high, lowest, highest, between⟩, small⟩ := allowed
  have whole : toInt (.finite n) = .ok n := by
    rw [toInt, Rat.num_intCast, Rat.den_intCast, Nat.cast_one, Int.tdiv_one]
  have inRange : checkRange f name (.int n) entry = .ok () := by
    unfold checkRange
    rw [lowest, highest]
    exact if_pos between
  unfold parseInteger
  simp only [bare, units, whole, bind, Except.bind, if_pos small, inRange]

theorem sorted_largestFirst {family : Family} (known : family = memoryUnits ∨ family = timeUnits) :
    (largestFirst family).Pairwise fun unit unit' => unit'.2 ≤ unit.2 := by
  rcases known with rfl | rfl
  · decide
  · decide

theorem smallest_unit {family : Family} (known : family = memoryUnits ∨ family = timeUnits) :
    ∃ unit ∈ largestFirst family, unit.2 = 1 := by
  rcases known with rfl | rfl
  · decide
  · decide

theorem mem_largestFirst {family : Family} {unit : Text × Nat} :
    unit ∈ largestFirst family ↔ unit ∈ family :=
  List.mem_insertionSort _

theorem renderNumber_shown (f : Arithmetic) (entry : Entry) (n : Int) :
    ShownInLargestUnit entry n (renderNumber f (.int n) entry) := by
  unfold ShownInLargestUnit renderNumber
  cases units : entry.units with
  | none => rfl
  | some units' =>
    obtain ⟨own, family⟩ := units'
    dsimp only
    by_cases zero : n = 0
    · rw [if_pos zero, Number.isZero, decide_eq_true zero, if_pos rfl]
    · rw [if_neg zero, Number.isZero, decide_eq_false zero, if_neg nofun]
      obtain ⟨known, -⟩ := familyOf_cases (units_eq_some units).2
      have absolute : (Number.int n |>.scale f (splitMultiple own).1).scale f
          (sizeIn family (splitMultiple own).2) = .int (n * sizeOf family own) := by
        simp only [Number.scale, sizeOf]
        push_cast
        rw [mul_assoc, mul_comm ((splitMultiple own).1 : Int)]
      rw [absolute]
      have dvd_of_divides {size : Nat}
          (divides : (Number.int (n * sizeOf family own)).divides size = true) :
          (size : Int) ∣ n * sizeOf family own :=
        Int.dvd_of_emod_eq_zero (of_decide_eq_true divides)
      cases found : (largestFirst family).find? fun unit =>
          (Number.int (n * sizeOf family own)).divides unit.2 with
      | none =>
        obtain ⟨unit, member, one⟩ := smallest_unit known
        have undivided := List.find?_eq_none.mp found unit member
        rw [one] at undivided
        exact (undivided (decide_eq_true (Int.emod_one _))).elim
      | some unit =>
        obtain ⟨divides, before, after, split, larger⟩ := List.find?_eq_some_iff_append.mp found
        have sorted := sorted_largestFirst known
        rw [split] at sorted
        refine ⟨unit, mem_largestFirst.mp (List.mem_of_find?_eq_some found), _,
          (Int.ediv_mul_cancel (dvd_of_divides divides)).symm, rfl, fun unit' member dvd => ?_⟩
        rw [← mem_largestFirst, split] at member
        rcases List.mem_append.mp member with early | late
        · have undivided := larger unit' early
          rw [Number.divides, decide_eq_true (Int.emod_eq_zero_of_dvd dvd)] at undivided
          cases undivided
        · rcases List.mem_cons.mp late with rfl | late
          · exact le_rfl
          · exact (List.pairwise_cons.mp (List.pairwise_append.mp sorted).2.1).1 unit' late

/-- What an integer is shown as is read as that integer. -/
theorem parseInteger_renderNumber (exact' : ExactArithmetic f)
    {n : Int} (allowed : entry.Allows (.number (.int n))) :
    parseInteger t f name (renderNumber f (.int n) entry) entry = .ok (.number (.int n)) := by
  have shown := renderNumber_shown f entry n
  have plain : parseInteger t f name (intText n) entry = .ok (.number (.int n)) :=
    parseInteger_of_units t name allowed (strip_plain (intText_unspaced n))
      (inOwnUnits_plain t name exact' n)
  unfold ShownInLargestUnit at shown
  cases units : entry.units with
  | none =>
    rw [units] at shown
    rw [shown]
    exact plain
  | some units' =>
    obtain ⟨own, family⟩ := units'
    rw [units] at shown
    dsimp only at shown
    by_cases zero : n = 0
    · rw [if_pos zero] at shown
      rw [shown]
      exact plain
    · rw [if_neg zero] at shown
      obtain ⟨unit, member, count, same, text, -⟩ := shown
      obtain ⟨known, -⟩ := familyOf_cases (units_eq_some units).2
      rw [text]
      exact parseInteger_of_units t name allowed
        (strip_number count (lettered_unit known unit member).1)
        (inOwnUnits_unit t name exact' units member same)

end Integers

/-! ## Booleans and enumerations -/

section Words

variable (t : ValueTables) (name : Text)

theorem parseBool_onOff (b : Bool) : parseBool t name (onOff b) = .ok (.bool b) := by
  have bare : Endpoint.strip (onOff b) = onOff b := by
    cases b
    · decide
    · decide
  have lowered : t.lower (onOff b) = onOff b := by
    cases b
    · exact (t.lower_ascii _ (by simp [onOff])).trans (by decide)
    · exact (t.lower_ascii _ (by simp [onOff])).trans (by decide)
  unfold parseBool
  rw [bare, lowered]
  cases b
  · rfl
  · rfl

/-- A value of an enumeration is found under its own spelling. -/
theorem parseEnum_candidate {entry : Entry} {value : Text} (member : value ∈ entry.enumvals) :
    parseEnum t name value entry = .ok (.text value) := by
  have lowered : ∀ candidate ∈ entry.enumvals, t.lower candidate = candidate.map Char.toLower :=
    fun candidate listed => t.lower_ascii candidate (entry.trimmed candidate listed).1
  have found : entry.enumvals.find? (fun candidate => t.lower value = t.lower candidate) =
      some value := by
    obtain ⟨candidate, hit⟩ := Option.isSome_iff_exists.mp
      (List.find?_isSome.mpr ⟨value, member, decide_eq_true rfl⟩ :
        (entry.enumvals.find? fun candidate => t.lower value = t.lower candidate).isSome = true)
    have listed := List.mem_of_find?_eq_some hit
    have same : t.lower value = t.lower candidate := by simpa using List.find?_some hit
    rw [lowered value member, lowered candidate listed] at same
    rw [hit, List.inj_on_of_nodup_map entry.apart listed member same.symm]
  unfold parseEnum
  simp only [(entry.trimmed value member).2, found]

end Words

/-! ## Every parameter -/

/-- What is shown of a value is read as the value, and of an integer it is in the largest unit. -/
theorem parse_render (t : ValueTables) {f : Arithmetic} (exact' : ExactArithmetic f)
    {catalogue : SettingsCatalogue} {name : Text} {entry : Entry}
    (found : catalogue.settings (t.lower name) = some entry)
    (discrete : entry.vartype = .bool ∨ entry.vartype = .enum ∨ entry.vartype = .integer)
    {v : Value} (allowed : entry.Allows v) :
    parse t f name catalogue (render t f name catalogue v) = .ok v ∧
    ∀ n, v = .number (.int n) → ShownInLargestUnit entry n (render t f name catalogue v) := by
  have checked : entry.vartype ≠ .string := by
    rintro string
    simp [string] at discrete
  unfold parse render
  simp only [found, narrowed_of_checked found checked, parseAs]
  cases v with
  | bool b =>
    have vartype : entry.vartype = .bool := allowed
    simp only [vartype]
    refine ⟨parseBool_onOff t name b, ?_⟩
    rintro n ⟨⟩
  | text text =>
    obtain ⟨vartype, member⟩ := allowed
    simp only [vartype]
    refine ⟨parseEnum_candidate t name member, ?_⟩
    rintro n ⟨⟩
  | number n =>
    cases n with
    | int n =>
      have vartype := allowed.1
      simp only [vartype]
      refine ⟨parseInteger_renderNumber t name exact' allowed, ?_⟩
      rintro _ ⟨⟩
      exact renderNumber_shown f entry n
    | float x =>
      have vartype := allowed.1
      simp [vartype] at discrete

/-! ## `work_mem` in exact arithmetic -/

def readDecimal (digits : Text) : Option ℚ :=
  if digits ≠ [] ∧ digits.all Char.isDigit then
    some (Positional.numeral 10 (Positional.readDigits digits))
  else none

/-- Integers are read, and nothing is rounded. -/
def integerArithmetic : Arithmetic where
  ofText
    | '-' :: digits => (readDecimal digits).map fun q => .finite (-q)
    | digits => (readDecimal digits).map .finite
  round := .finite
  general := plainArithmetic.general

theorem readDecimal_digitText (n : Nat) : readDecimal (digitText (digits 10 n)) = some (n : ℚ) := by
  have small := digits_lt (b := 10) (by omega) n
  have every : (digitText (digits 10 n)).all Char.isDigit = true := by
    refine List.all_eq_true.mpr fun c member => ?_
    obtain ⟨d, inside, rfl⟩ := List.mem_map.mp member
    exact (digitChar_small (small d inside)).2
  have some_ : digitText (digits 10 n) ≠ [] := fun none =>
    digits_ne_nil 10 n (List.map_eq_nil_iff.mp none)
  rw [readDecimal, if_pos ⟨some_, every⟩, Positional.readDigits_digitText small,
    Positional.numeral_digits]

theorem exact_integerArithmetic : ExactArithmetic integerArithmetic where
  round _ := rfl
  ofText n := by
    have read := readDecimal_digitText n.natAbs
    have bare : integerArithmetic.ofText (digitText (digits 10 n.natAbs)) =
        (readDecimal (digitText (digits 10 n.natAbs))).map .finite := by
      unfold integerArithmetic
      dsimp only
      split
      · rename_i rest signed
        refine absurd ?_ (Positional.digitText_plain (digits_lt (b := 10) (by omega) n.natAbs)
          (digits_ne_nil 10 n.natAbs) [] rest)
        rw [List.append_nil, signed]
      · rfl
    unfold intText
    split_ifs with negative
    · have minus : ((n.natAbs : ℕ) : ℚ) = -n := by
        rw [← Int.cast_natCast, show (n.natAbs : ℤ) = -n by omega, Int.cast_neg]
      simp only [integerArithmetic, read, Option.map_some, minus, neg_neg]
    · have plus : ((n.natAbs : ℕ) : ℚ) = n := by
        rw [← Int.cast_natCast, show (n.natAbs : ℤ) = n by omega]
      rw [bare, read, Option.map_some, plus]

theorem workMem_allows : workMem.Allows (.number (.int 32768)) := by
  refine ⟨rfl, ⟨_, _, rfl, rfl, ?_⟩, by omega⟩
  norm_num [Number.between]

theorem work_mem_read_back :
    render asciiValues integerArithmetic "work_mem".toList workMemCatalogue
      (.number (.int 32768)) = "32MB".toList ∧
    parse asciiValues integerArithmetic "work_mem".toList workMemCatalogue "32MB".toList =
      .ok (.number (.int 32768)) := by
  have shown : render asciiValues integerArithmetic "work_mem".toList workMemCatalogue
      (.number (.int 32768)) = "32MB".toList := by
    decide
  refine ⟨shown, ?_⟩
  rw [← shown]
  exact (parse_render asciiValues exact_integerArithmetic workMem_found (Or.inr (Or.inr rfl))
    workMem_allows).1

end PgMimic.SettingsValues
