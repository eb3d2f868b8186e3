import PgMimic.SettingsValues

/-!
# A value is taken or refused

A text for a parameter is read as a value it takes, or refused with 22023, unless an
integer is written so large that the floating point number is infinite before the range is
looked at.
-/

namespace PgMimic.SettingsValues

open PgMimic.Copy (Text)
open PgMimic.Endpoint (asciiTables)
open Positional (numeral readDigits)

/-- From here on a number is infinite in double precision. -/
def overflow : ℚ := 2 ^ 1024 - 2 ^ 970

/-- What double precision makes of a result. -/
structure Binary64 (f : Arithmetic) : Prop where
  finite : ∀ q, |q| < overflow → ∃ r, f.round q = .finite r ∧ |r| < overflow
  infinite : ∀ q, overflow ≤ |q| → ∃ negative, f.round q = .infinity negative

/-- The result is a value of the parameter's, or an error with 22023. -/
def AcceptedOrRefused (entry : Entry) (result : Except Failure Value) : Prop :=
  (∃ v, result = .ok v ∧ entry.Allows v) ∨
    ∃ e : PgError, result = .error (.error e) ∧ e.sqlstate = "22023"

/-- The numeral is finite in double precision, and is so in the smallest unit where it has a
unit that the parameter takes. -/
def NumeralFits (t : ValueTables) (f : Arithmetic) (entry : Entry) (value : Text) : Prop :=
  ∀ number, f.ofText (splitSuffix t (Endpoint.strip value)).1 = some number →
    ((splitSuffix t (Endpoint.strip value)).2 = [] → ∃ q, number = .finite q) ∧
    ∀ own family size, entry.units = some (own, family) →
      (splitSuffix t (Endpoint.strip value)).2 ≠ [] →
      family.lookup (splitSuffix t (Endpoint.strip value)).2 = some size →
      ∃ q, number = .finite q ∧ |q * size| < overflow

theorem refused_invalid (entry : Entry) (name value : Text) (hint : Option Text) :
    AcceptedOrRefused entry (.error (invalid name value hint)) :=
  Or.inr ⟨_, rfl, rfl⟩

/-! ## Booleans and enumerations -/

section Words

variable (t : ValueTables) (name : Text) {entry : Entry} (value : Text)

theorem parseBool_accepted_or_refused (isBool : entry.vartype = .bool) :
    AcceptedOrRefused entry (parseBool t name value) := by
  unfold parseBool
  dsimp only
  split
  · exact Or.inl ⟨_, rfl, isBool⟩
  · split
    · exact Or.inl ⟨_, rfl, isBool⟩
    · exact Or.inr ⟨_, rfl, rfl⟩

theorem parseEnum_accepted_or_refused (isEnum : entry.vartype = .enum) :
    AcceptedOrRefused entry (parseEnum t name value entry) := by
  unfold parseEnum
  dsimp only
  split
  · rename_i candidate found
    exact Or.inl ⟨_, rfl, isEnum, List.mem_of_find?_eq_some found⟩
  · split
    · rename_i both
      split
      · rename_i b found
        refine Or.inl ⟨_, rfl, isEnum, ?_⟩
        cases b with
        | false => exact both.2
        | true => exact both.1
      · exact refused_invalid entry name value _
    · exact refused_invalid entry name value _

end Words

/-! ## Numbers -/

section Numbers

variable (t : ValueTables) (f : Arithmetic) (name : Text) {entry : Entry}

theorem checkRange_cases (isNumber : entry.vartype = .integer ∨ entry.vartype = .real)
    (n : Number) :
    checkRange f name n entry = .ok () ∧ entry.InRange n ∨
      ∃ e : PgError, checkRange f name n entry = .error (.error e) ∧ e.sqlstate = "22023" := by
  obtain ⟨someLow, someHigh⟩ := entry.bounded isNumber
  obtain ⟨low, lowest⟩ := Option.isSome_iff_exists.mp someLow
  obtain ⟨high, highest⟩ := Option.isSome_iff_exists.mp someHigh
  unfold checkRange
  rw [lowest, highest]
  dsimp only
  split
  · rename_i between
    exact Or.inl ⟨rfl, low, high, lowest, highest, between⟩
  · exact Or.inr ⟨_, rfl, rfl⟩

/-- The number of a text in the parameter's unit: none, or as it is read, or scaled. -/
theorem inOwnUnits_cases (text : Text) (entry : Entry) :
    (∃ e : PgError, inOwnUnits t f name text entry = .error (.error e) ∧ e.sqlstate = "22023" ∧
      ∀ number, f.ofText (splitSuffix t text).1 = some number → (splitSuffix t text).2 ≠ [] ∧
        ∀ own family, entry.units = some (own, family) →
          family.lookup (splitSuffix t text).2 = none) ∨
    (∃ number, f.ofText (splitSuffix t text).1 = some number ∧ (splitSuffix t text).2 = [] ∧
      inOwnUnits t f name text entry = .ok number) ∨
    ∃ number own family size, f.ofText (splitSuffix t text).1 = some number ∧
      (splitSuffix t text).2 ≠ [] ∧ entry.units = some (own, family) ∧
      family.lookup (splitSuffix t text).2 = some size ∧
      inOwnUnits t f name text entry = .ok (div f (mul f number size) (sizeOf family own)) := by
  unfold inOwnUnits
  dsimp only
  cases read : f.ofText (splitSuffix t text).1 with
  | none => exact Or.inl ⟨_, rfl, rfl, nofun⟩
  | some number =>
    dsimp only
    by_cases bare : (splitSuffix t text).2 = []
    · rw [if_pos bare]
      exact Or.inr (Or.inl ⟨number, rfl, bare, rfl⟩)
    · rw [if_neg bare]
      cases units : entry.units with
      | none => exact Or.inl ⟨_, rfl, rfl, fun _ _ => ⟨bare, nofun⟩⟩
      | some units' =>
        obtain ⟨own, family⟩ := units'
        dsimp only
        cases found : family.lookup (splitSuffix t text).2 with
        | none =>
          refine Or.inl ⟨_, rfl, rfl, fun _ _ => ⟨bare, ?_⟩⟩
          rintro _ _ ⟨⟩
          exact found
        | some size =>
          exact Or.inr (Or.inr ⟨number, own, family, size, rfl, bare, rfl, found, rfl⟩)

theorem parseReal_accepted_or_refused (isReal : entry.vartype = .real) (value : Text) :
    AcceptedOrRefused entry (parseReal t f name value entry) := by
  unfold parseReal
  cases units : inOwnUnits t f name (Endpoint.strip value) entry with
  | error failure =>
    rcases inOwnUnits_cases t f name (Endpoint.strip value) entry with
      ⟨e, refused, code, -⟩ | ⟨_, _, _, taken⟩ | ⟨_, _, _, _, _, _, _, _, taken⟩
    · rw [units] at refused
      cases refused
      exact Or.inr ⟨e, rfl, code⟩
    · rw [units] at taken
      cases taken
    · rw [units] at taken
      cases taken
  | ok number =>
    rcases checkRange_cases f name (Or.inr isReal) (.float number) with
      ⟨within, inRange⟩ | ⟨e, refused, code⟩
    · refine Or.inl ⟨.number (.float number), ?_, isReal, inRange⟩
      simp only [bind, Except.bind, within]
    · refine Or.inr ⟨e, ?_, code⟩
      simp only [bind, Except.bind, refused]

/-- What follows the conversion to an integer. -/
theorem parseInteger_of_number (isInteger : entry.vartype = .integer) {value : Text}
    {number : Double} (units : inOwnUnits t f name (Endpoint.strip value) entry = .ok number) :
    AcceptedOrRefused entry (parseInteger t f name value entry) ↔ ∃ q, number = .finite q := by
  unfold parseInteger
  simp only [units, bind, Except.bind]
  constructor
  · intro answered
    cases number with
    | finite q => exact ⟨q, rfl⟩
    | infinity negative =>
      rcases answered with ⟨_, impossible, _⟩ | ⟨_, impossible, _⟩
      · cases impossible
      · cases impossible
    | nan =>
      rcases answered with ⟨_, impossible, _⟩ | ⟨_, impossible, _⟩
      · cases impossible
      · cases impossible
  · rintro ⟨q, rfl⟩
    dsimp only [toInt]
    split
    · rename_i small
      rcases checkRange_cases f name (Or.inl isInteger) (.int (q.num.tdiv q.den)) with
        ⟨within, inRange⟩ | ⟨e, refused, code⟩
      · rw [within]
        exact Or.inl ⟨_, rfl, isInteger, inRange, small⟩
      · rw [refused]
        exact Or.inr ⟨e, rfl, code⟩
    · exact refused_invalid entry name _ _

variable {f}

theorem size_pos {family : Family} (known : family = memoryUnits ∨ family = timeUnits) :
    ∀ unit ∈ family, 0 < unit.2 := by
  rcases known with rfl | rfl
  · decide
  · decide

/-- A number scaled from one unit to another is finite where it is so in the smallest. -/
theorem scaled_finite_iff (binary : Binary64 f) {size own : Nat} (positive : 0 < size)
    (positive' : 0 < own) (number : Double) :
    (∃ r, div f (mul f number size) own = .finite r) ↔
      ∃ q, number = .finite q ∧ |q * size| < overflow := by
  cases number with
  | finite q =>
    rcases lt_or_ge |q * size| overflow with small | large
    · obtain ⟨r, rounded, bounded⟩ := binary.finite _ small
      have shrinks : |r / own| < overflow := by
        have unit : (1 : ℚ) ≤ own := by exact_mod_cast positive'
        rw [abs_div, abs_of_pos (lt_of_lt_of_le one_pos unit)]
        exact (div_le_self (abs_nonneg r) unit).trans_lt bounded
      obtain ⟨r', rounded', -⟩ := binary.finite _ shrinks
      refine iff_of_true ⟨r', ?_⟩ ⟨q, rfl, small⟩
      rw [mul, rounded, div, rounded']
    · obtain ⟨negative, rounded⟩ := binary.infinite _ large
      refine iff_of_false ?_ ?_
      · rintro ⟨r, finite⟩
        rw [mul, rounded] at finite
        cases finite
      · rintro ⟨_, ⟨⟩, small⟩
        exact absurd small (not_lt.mpr large)
  | infinity negative =>
    refine iff_of_false ?_ ?_
    · rintro ⟨r, finite⟩
      rw [mul, if_neg positive.ne'] at finite
      cases finite
    · rintro ⟨_, ⟨⟩, _⟩
  | nan =>
    refine iff_of_false ?_ ?_
    · rintro ⟨r, ⟨⟩⟩
    · rintro ⟨_, ⟨⟩, _⟩

theorem parseInteger_accepted_or_refused_iff (binary : Binary64 f)
    (isInteger : entry.vartype = .integer) (value : Text) :
    AcceptedOrRefused entry (parseInteger t f name value entry) ↔ NumeralFits t f entry value := by
  rcases inOwnUnits_cases t f name (Endpoint.strip value) entry with
    ⟨e, refused, code, unread⟩ | ⟨number, read, bare, taken⟩ |
    ⟨number, own, family, size, read, suffixed, units, found, taken⟩
  · refine iff_of_true (Or.inr ⟨e, ?_, code⟩) fun number read => ?_
    · simp only [parseInteger, refused, bind, Except.bind]
    · obtain ⟨suffixed, none⟩ := unread number read
      refine ⟨fun bare => (suffixed bare).elim, fun own family size units _ found => ?_⟩
      rw [none own family units] at found
      cases found
  · rw [parseInteger_of_number t f name isInteger taken]
    constructor
    · rintro finite number' read'
      obtain rfl := Option.some.inj (read.symm.trans read')
      exact ⟨fun _ => finite, fun _ _ _ _ suffixed => (suffixed bare).elim⟩
    · exact fun fits => (fits number read).1 bare
  · obtain ⟨known, -⟩ := familyOf_cases (units_eq_some units).2
    have positive : 0 < size := by
      obtain ⟨front, behind, split, -⟩ := List.lookup_eq_some_iff.mp found
      exact size_pos known (_, size) (split ▸ List.mem_append_right _ List.mem_cons_self)
    rw [parseInteger_of_number t f name isInteger taken,
      scaled_finite_iff binary positive (sizeOf_pos units)]
    constructor
    · rintro small number' read'
      obtain rfl := Option.some.inj (read.symm.trans read')
      refine ⟨fun bare => (suffixed bare).elim, fun own' family' size' units' _ found' => ?_⟩
      obtain ⟨rfl, rfl⟩ := Prod.mk.inj (Option.some.inj (units.symm.trans units'))
      obtain rfl := Option.some.inj (found.symm.trans found')
      exact small
    · exact fun fits => (fits number read).2 own family size units suffixed found

end Numbers

/-! ## Every parameter -/

/-- A text is accepted in range or refused as invalid if and only if it is not an integer's
whose numeral is infinite in double precision. -/
theorem parse_accepted_or_refused_iff (t : ValueTables) {f : Arithmetic} (binary : Binary64 f)
    {catalogue : SettingsCatalogue} {name : Text} {entry : Entry}
    (found : catalogue.settings (t.lower name) = some entry) (checked : entry.vartype ≠ .string)
    (value : Text) :
    AcceptedOrRefused entry (parse t f name catalogue value) ↔
      (entry.vartype = .integer → NumeralFits t f entry value) := by
  unfold parse
  simp only [found, narrowed_of_checked found checked, parseAs]
  cases vartype : entry.vartype with
  | bool => exact iff_of_true (parseBool_accepted_or_refused t name value vartype) nofun
  | enum => exact iff_of_true (parseEnum_accepted_or_refused t name value vartype) nofun
  | integer =>
    rw [forall_prop_of_true rfl]
    exact parseInteger_accepted_or_refused_iff t name binary vartype value
  | real => exact iff_of_true (parseReal_accepted_or_refused t f name vartype value) nofun
  | string => exact (checked vartype).elim

/-! ## A large number for `work_mem` -/

def asciiValues : ValueTables where
  toTextTables := asciiTables
  lower_ascii := fun _ _ => rfl
  isDigit := Char.isDigit
  isDigit_ascii := fun _ _ => rfl

/-- Numerals of digits, with or without an exponent, in double precision up to the rounding. -/
def plainArithmetic : Arithmetic where
  ofText text :=
    let (mantissa, exponent) := text.span fun c => c ≠ 'e'
    if mantissa = [] ∨ ¬mantissa.all Char.isDigit ∨ ¬exponent.tail.all Char.isDigit ∨
        exponent = ['e'] then none
    else
      let q : ℚ := numeral 10 (readDigits mantissa) * 10 ^ numeral 10 (readDigits exponent.tail)
      some (if q < overflow then .finite q else .infinity false)
  round q := if |q| < overflow then .finite q else .infinity (decide (q < 0))
  general
    | .finite q => intText ⌊q⌋
    | .infinity negative => if negative then "-inf".toList else "inf".toList
    | .nan => "nan".toList

theorem binary64_plain : Binary64 plainArithmetic where
  finite q small := ⟨q, if_pos small, small⟩
  infinite _ large := ⟨_, if_neg (not_lt.mpr large)⟩

def workMem : Entry where
  vartype := .integer
  unit := some "kB".toList
  minVal := some ⟨"64".toList, 64⟩
  maxVal := some ⟨"2147483647".toList, 2147483647⟩
  enumvals := []
  bounded _ := ⟨rfl, rfl⟩
  positive unit' same := by
    obtain rfl := Option.some.inj same
    decide
  trimmed := nofun
  apart := List.nodup_nil

def workMemCatalogue : SettingsCatalogue where
  settings name := if name = "work_mem".toList then some workMem else none
  encoding entry found := by
    rw [if_neg (by decide)] at found
    cases found

theorem lt_overflow {q : ℚ} (small : q < 2 ^ 53) : q < overflow := by
  have factors : overflow = 2 ^ 970 * (2 ^ 54 - 1) := by
    rw [overflow, mul_sub, ← pow_add, mul_one]
  have large : (1 : ℚ) ≤ 2 ^ 970 := one_le_pow₀ one_le_two
  calc q < 2 ^ 53 := small
    _ ≤ 2 ^ 54 - 1 := by norm_num
    _ ≤ 2 ^ 970 * (2 ^ 54 - 1) := le_mul_of_one_le_left (by norm_num) large
    _ = overflow := factors.symm

theorem overflow_le : overflow ≤ 10 ^ 400 := by
  have powers : (2 : ℚ) ^ 1024 ≤ 10 ^ 400 := by
    calc (2 : ℚ) ^ 1024 = (2 ^ 64) ^ 16 := by rw [← pow_mul]
      _ ≤ (10 ^ 25) ^ 16 := pow_le_pow_left₀ (by positivity) (by norm_num) 16
      _ = 10 ^ 400 := by rw [← pow_mul]
  exact (sub_le_self _ (by positivity)).trans powers

theorem workMem_found :
    workMemCatalogue.settings (asciiValues.lower "work_mem".toList) = some workMem := by
  rfl

theorem four_megabytes_accepted :
    AcceptedOrRefused workMem
      (parse asciiValues plainArithmetic "work_mem".toList workMemCatalogue "4MB".toList) := by
  refine (parse_accepted_or_refused_iff asciiValues binary64_plain workMem_found nofun _).mpr ?_
  intro _ number read
  have split : splitSuffix asciiValues (Endpoint.strip "4MB".toList) =
      ("4".toList, "MB".toList) := by decide
  rw [split] at read ⊢
  have four : plainArithmetic.ofText "4".toList = some (.finite 4) := by
    have plain : plainArithmetic.ofText "4".toList =
        some (if ((4 : ℕ) : ℚ) * 10 ^ 0 < overflow then .finite (((4 : ℕ) : ℚ) * 10 ^ 0)
          else .infinity false) := by rfl
    have small : ((4 : ℕ) : ℚ) * 10 ^ 0 < overflow := lt_overflow (by norm_num)
    rw [plain, if_pos small]
    norm_num
  obtain rfl := Option.some.inj (four.symm.trans read)
  refine ⟨nofun, fun own family size units _ found => ⟨4, rfl, ?_⟩⟩
  have kilobytes : workMem.units = some ("kB".toList, memoryUnits) := by rfl
  obtain ⟨rfl, rfl⟩ := Prod.mk.inj (Option.some.inj (kilobytes.symm.trans units))
  have megabyte : memoryUnits.lookup "MB".toList = some (1024 ^ 2) := by rfl
  obtain rfl := Option.some.inj (megabyte.symm.trans found)
  exact lt_overflow (by norm_num)

/-- The conversion to an integer raises what is no `PgError`. -/
theorem huge_work_mem_escapes :
    parse asciiValues plainArithmetic "work_mem".toList workMemCatalogue "1e400".toList =
      .error (.exception "cannot convert float infinity to integer") ∧
    ¬AcceptedOrRefused workMem
      (parse asciiValues plainArithmetic "work_mem".toList workMemCatalogue "1e400".toList) := by
  have split : splitSuffix asciiValues (Endpoint.strip "1e400".toList) = ("1e400".toList, []) := by
    decide
  have infinite : plainArithmetic.ofText "1e400".toList = some (.infinity false) := by
    have plain : plainArithmetic.ofText "1e400".toList =
        some (if ((1 : ℕ) : ℚ) * 10 ^ 400 < overflow then .finite (((1 : ℕ) : ℚ) * 10 ^ 400)
          else .infinity false) := by rfl
    have large : ¬((1 : ℕ) : ℚ) * 10 ^ 400 < overflow := by
      rw [Nat.cast_one, one_mul]
      exact not_lt.mpr overflow_le
    rw [plain, if_neg large]
  have escapes : parse asciiValues plainArithmetic "work_mem".toList workMemCatalogue
      "1e400".toList = .error (.exception "cannot convert float infinity to integer") := by
    have bare : inOwnUnits asciiValues plainArithmetic "work_mem".toList
        (Endpoint.strip "1e400".toList) workMem = .ok (.infinity false) := by
      unfold inOwnUnits
      rw [split]
      simp only [infinite, if_true]
    have integer : parse asciiValues plainArithmetic "work_mem".toList workMemCatalogue
        "1e400".toList =
        parseInteger asciiValues plainArithmetic "work_mem".toList "1e400".toList workMem := by
      unfold parse
      simp only [workMem_found, narrowed_of_checked workMem_found nofun]
      rfl
    rw [integer, parseInteger, bare]
    rfl
  refine ⟨escapes, ?_⟩
  rw [escapes]
  rintro (⟨_, impossible, _⟩ | ⟨_, impossible, _⟩)
  · cases impossible
  · cases impossible

end PgMimic.SettingsValues
