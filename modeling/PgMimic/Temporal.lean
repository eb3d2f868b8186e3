import PgMimic.Intervals
import PgMimic.Lib.BigEndian
import PgMimic.Lib.Calendar

/-!
# Dates, times and timestamps

In binary a date is a number of days and a timestamp a number of microseconds, both from the
start of the year 2000, and a time of the day is a number of microseconds. In text they are as
Python's `isoformat` writes them, in the years from 1 to 9999.
-/

namespace PgMimic.Temporal

open PgMimic.Copy (Text)
open PgMimic.Intervals (padded perDay length_padded padded_inj)

/-! ## Dates -/

/-- Python's `date`. -/
abbrev Date := Calendar.Date 9999

def PG_EPOCH_DATE : Date := ⟨2000, 1, 1, by decide, by decide, by decide⟩

/-- `date.isoformat`. -/
def isoDate (d : Date) : Text :=
  padded 4 d.year ++ '-' :: (padded 2 d.month ++ '-' :: padded 2 d.day)

/-- `date + timedelta(days=...)`. -/
def addDays (d : Date) (days : Int) : Option Date :=
  if 0 ≤ (d.number : Int) + days then Calendar.ofNumber 9999 ((d.number : Int) + days).toNat
  else none

/-- `_encode_date_bin`, of a date. -/
def encodeDateBin (d : Date) : Option (List UInt8) :=
  BigEndian.pack 4 ((d.number : Int) - PG_EPOCH_DATE.number)

/-- `_decode_date`. -/
def decodeDate (data : List UInt8) : Option Text := do
  let days ← BigEndian.unpack 4 data
  let d ← addDays PG_EPOCH_DATE days
  some (isoDate d)

/-! ## Times of the day -/

/-- Python's `time`, without a time zone. -/
@[ext]
structure Time where
  hour : Nat
  minute : Nat
  second : Nat
  microsecond : Nat
  hour_lt : hour < 24
  minute_lt : minute < 60
  second_lt : second < 60
  microsecond_lt : microsecond < 10 ^ 6
deriving DecidableEq

/-- `time.isoformat`. -/
def isoTime (t : Time) : Text :=
  padded 2 t.hour ++ ':' :: (padded 2 t.minute ++ ':' :: (padded 2 t.second ++
    (if t.microsecond = 0 then [] else '.' :: padded 6 t.microsecond)))

/-- The microseconds since midnight. -/
def Time.micros (t : Time) : Nat :=
  ((t.hour * 60 + t.minute) * 60 + t.second) * 10 ^ 6 + t.microsecond

/-- `time(hour, minute, second, microsecond)`. -/
def time (hour minute second microsecond : Int) : Option Time :=
  if range : (0 ≤ hour ∧ hour < 24) ∧ (0 ≤ minute ∧ minute < 60) ∧ (0 ≤ second ∧ second < 60) ∧
      0 ≤ microsecond ∧ microsecond < 10 ^ 6 then
    some ⟨hour.toNat, minute.toNat, second.toNat, microsecond.toNat, by omega, by omega, by omega,
      by omega⟩
  else none

/-- The `divmod`s of `_decode_time`. -/
def timeOf (micros : Int) : Option Time :=
  time (micros / 10 ^ 6 / 60 / 60) (micros / 10 ^ 6 / 60 % 60) (micros / 10 ^ 6 % 60)
    (micros % 10 ^ 6)

/-- `_encode_time_bin`, of a time. -/
def encodeTimeBin (t : Time) : Option (List UInt8) := BigEndian.pack 8 t.micros

/-- `_decode_time`. -/
def decodeTime (data : List UInt8) : Option Text := do
  let micros ← BigEndian.unpack 8 data
  let t ← timeOf micros
  some (isoTime t)

/-! ## Timestamps -/

/-- A clock on a wall somewhere. -/
@[ext]
structure Wall where
  date : Date
  time : Time
deriving DecidableEq

/-- What a time zone is ahead of UTC, in microseconds. -/
structure Offset where
  micros : Int
  range : -perDay < micros ∧ micros < perDay
deriving DecidableEq

/-- Python's `datetime`, aware if it has an offset. -/
structure DateTime where
  wall : Wall
  offset : Option Offset
deriving DecidableEq

/-- The microseconds from the first of January of the year 1. -/
def Wall.micros (w : Wall) : Int := w.date.number * perDay + w.time.micros

/-- The datetime that many microseconds from the first of January of the year 1. -/
def wallOf (micros : Int) : Option Wall :=
  if 0 ≤ micros then do
    let date ← Calendar.ofNumber 9999 (micros / perDay).toNat
    let time ← timeOf (micros % perDay)
    some ⟨date, time⟩
  else none

/-- The clock that stands at midnight when a date begins. -/
def midnight (d : Date) : Wall := ⟨d, ⟨0, 0, 0, 0, by decide, by decide, by decide, by decide⟩⟩

def PG_EPOCH : Wall := midnight PG_EPOCH_DATE

def isoWall (w : Wall) : Text := isoDate w.date ++ ' ' :: isoTime w.time

/-- An offset as `isoformat` writes it, its seconds only where there are any. -/
def isoOffset (o : Offset) : Text :=
  let size := o.micros.natAbs
  let seconds := size / 10 ^ 6
  (if o.micros < 0 then '-' else '+') :: (padded 2 (seconds / 3600) ++ ':' ::
    (padded 2 (seconds / 60 % 60) ++
      (if size % (60 * 10 ^ 6) = 0 then [] else ':' :: (padded 2 (seconds % 60) ++
        (if size % 10 ^ 6 = 0 then [] else '.' :: padded 6 (size % 10 ^ 6))))))

/-- `_datetime_out`. -/
def datetimeOut (v : DateTime) : Text :=
  isoWall v.wall ++ match v.offset with
    | none => []
    | some offset => isoOffset offset

/-- `_micros_since_epoch`: the parts of the timedelta come to this. -/
def microsSinceEpoch (w : Wall) : Option (List UInt8) :=
  BigEndian.pack 8 (w.micros - PG_EPOCH.micros)

/-- `_encode_timestamp_bin`, of a datetime. -/
def encodeTimestampBin (v : DateTime) : Option (List UInt8) := microsSinceEpoch v.wall

/-- `astimezone(timezone.utc)`. -/
def DateTime.utc (v : DateTime) : Option Wall :=
  match v.offset with
  | none => some v.wall
  | some offset => wallOf (v.wall.micros - offset.micros)

/-- `_encode_timestamptz_bin`, of a datetime. -/
def encodeTimestamptzBin (v : DateTime) : Option (List UInt8) := do
  let w ← v.utc
  microsSinceEpoch w

/-- `_decode_timestamp`. -/
def decodeTimestamp (data : List UInt8) : Option Text := do
  let micros ← BigEndian.unpack 8 data
  let w ← wallOf (PG_EPOCH.micros + micros)
  some (isoWall w)

/-! ## Numbers -/

theorem addDays_eq_some_iff {d e : Date} {days : Int} :
    addDays d days = some e ↔ (e.number : Int) = d.number + days := by
  rw [addDays]
  split
  · rw [Calendar.ofNumber_eq_some_iff]
    omega
  · simp only [reduceCtorEq, false_iff]
    omega

theorem time_eq_some_iff {hour minute second microsecond : Int} {t : Time} :
    time hour minute second microsecond = some t ↔
      t.hour = hour ∧ t.minute = minute ∧ t.second = second ∧ t.microsecond = microsecond := by
  have hours := t.hour_lt
  have minutes := t.minute_lt
  have seconds := t.second_lt
  have microseconds := t.microsecond_lt
  rw [time]
  split
  · rw [Option.some.injEq, Time.ext_iff]
    simp only
    omega
  · simp only [reduceCtorEq, false_iff]
    omega

theorem timeOf_eq_some_iff {micros : Int} {t : Time} :
    timeOf micros = some t ↔ (t.micros : Int) = micros := by
  have hours := t.hour_lt
  have minutes := t.minute_lt
  have seconds := t.second_lt
  have microseconds := t.microsecond_lt
  rw [timeOf, time_eq_some_iff, Time.micros]
  omega

theorem micros_lt (t : Time) : (t.micros : Int) < perDay := by
  have hours := t.hour_lt
  have minutes := t.minute_lt
  have seconds := t.second_lt
  have microseconds := t.microsecond_lt
  rw [Time.micros, perDay]
  omega

theorem wallOf_eq_some_iff {micros : Int} {w : Wall} :
    wallOf micros = some w ↔ w.micros = micros := by
  have inDay := micros_lt w.time
  rw [wallOf, Wall.micros]
  split
  case isTrue positive =>
    simp only [Option.bind_eq_bind, Option.bind_eq_some_iff, Calendar.ofNumber_eq_some_iff,
      timeOf_eq_some_iff, Option.some.injEq]
    have whole : micros / perDay * perDay + micros % perDay = micros := Int.ediv_mul_add_emod ..
    constructor
    · rintro ⟨date, days, time, rest, rfl⟩
      simp only
      have high : 0 ≤ micros / perDay := Int.ediv_nonneg positive (by decide)
      have number : (date.number : Int) = micros / perDay := by omega
      rw [number, rest, whole]
    · rintro rfl
      refine ⟨w.date, ?_, w.time, ?_, rfl⟩
      · have split : (w.date.number * perDay + w.time.micros) / perDay = w.date.number := by
          rw [Int.add_comm, Int.add_mul_ediv_right _ _ (by decide),
            Int.ediv_eq_zero_of_lt (by omega) inDay, Int.zero_add]
        rw [split, Int.toNat_natCast]
      · rw [Int.add_comm, Int.add_mul_emod_self_right, Int.emod_eq_of_lt (by omega) inDay]
  case isFalse negative =>
    simp only [reduceCtorEq, false_iff]
    rintro rfl
    have low : 0 ≤ (w.date.number : Int) * perDay := Int.mul_nonneg (by omega) (by decide)
    omega

/-! ## Texts -/

theorem month_le (d : Date) : d.month ≤ 12 := by
  have range := d.day_range
  have twelve : (Calendar.monthLengths d.year).length = 12 := rfl
  by_contra beyond
  have none_ : (Calendar.monthLengths d.year).getD (d.month - 1) 0 = 0 :=
    List.getD_eq_default _ _ (by omega)
  omega

theorem monthLengths_le (year : Nat) : ∀ days ∈ Calendar.monthLengths year, days ≤ 31 := by
  intro days inside
  simp only [Calendar.monthLengths, List.mem_cons, List.not_mem_nil, or_false] at inside
  split at inside <;> omega

theorem day_le (d : Date) : d.day ≤ 31 := by
  have range := d.day_range
  have month := month_le d
  have first := d.month_pos
  have twelve : (Calendar.monthLengths d.year).length = 12 := rfl
  have short : d.month - 1 < (Calendar.monthLengths d.year).length := by omega
  rw [List.getD_eq_getElem _ _ short] at range
  have long := monthLengths_le d.year _ (List.getElem_mem short)
  omega

theorem length_year (d : Date) : (padded 4 d.year).length = 4 := by
  have range := d.year_range
  exact length_padded (by decide) (by omega)

theorem length_two {n : Nat} (small : n < 100) : (padded 2 n).length = 2 :=
  length_padded (by decide) (by omega)

theorem length_month (d : Date) : (padded 2 d.month).length = 2 := by
  have month := month_le d
  exact length_two (by omega)

theorem length_day (d : Date) : (padded 2 d.day).length = 2 := by
  have day := day_le d
  exact length_two (by omega)

theorem length_isoDate (d : Date) : (isoDate d).length = 10 := by
  simp [isoDate, length_year, length_month, length_day]

theorem isoDate_inj {d e : Date} (same : isoDate d = isoDate e) : d = e := by
  rw [isoDate, isoDate] at same
  obtain ⟨year, same⟩ := List.append_inj same ((length_year d).trans (length_year e).symm)
  obtain ⟨month, same⟩ :=
    List.append_inj (List.cons.inj same).2 ((length_month d).trans (length_month e).symm)
  exact Calendar.Date.ext (padded_inj year) (padded_inj month)
    (padded_inj (List.cons.inj same).2)

theorem isoTime_inj {t u : Time} (same : isoTime t = isoTime u) : t = u := by
  have hours := t.hour_lt
  have minutes := t.minute_lt
  have seconds := t.second_lt
  have hours' := u.hour_lt
  have minutes' := u.minute_lt
  have seconds' := u.second_lt
  rw [isoTime, isoTime] at same
  obtain ⟨hour, same⟩ := List.append_inj same
    ((length_two (by omega)).trans (length_two (by omega)).symm)
  obtain ⟨minute, same⟩ := List.append_inj (List.cons.inj same).2
    ((length_two (by omega)).trans (length_two (by omega)).symm)
  obtain ⟨second, same⟩ := List.append_inj (List.cons.inj same).2
    ((length_two (by omega)).trans (length_two (by omega)).symm)
  have microsecond : t.microsecond = u.microsecond := by
    split_ifs at same with none_ none_'
    · rw [none_, none_']
    · exact padded_inj (List.cons.inj same).2
  exact Time.ext (padded_inj hour) (padded_inj minute) (padded_inj second) microsecond

theorem isoWall_inj {w v : Wall} (same : isoWall w = isoWall v) : w = v := by
  rw [isoWall, isoWall] at same
  obtain ⟨date, time⟩ :=
    List.append_inj same ((length_isoDate w.date).trans (length_isoDate v.date).symm)
  exact Wall.ext (isoDate_inj date) (isoTime_inj (List.cons.inj time).2)

/-! ## Bytes -/

theorem decodeDate_eq_some_iff {data : List UInt8} {text : Text} :
    decodeDate data = some text ↔ ∃ d, encodeDateBin d = some data ∧ isoDate d = text := by
  simp only [decodeDate, Option.bind_eq_bind, Option.bind_eq_some_iff, addDays_eq_some_iff,
    BigEndian.unpack_eq_some_iff, Option.some.injEq, encodeDateBin]
  constructor
  · rintro ⟨days, packed, d, number, shown⟩
    have same : (d.number : Int) - PG_EPOCH_DATE.number = days := by omega
    exact ⟨d, by rw [same, packed], shown⟩
  · rintro ⟨d, packed, shown⟩
    exact ⟨_, packed, d, by omega, shown⟩

theorem decodeTime_eq_some_iff {data : List UInt8} {text : Text} :
    decodeTime data = some text ↔ ∃ t, encodeTimeBin t = some data ∧ isoTime t = text := by
  simp only [decodeTime, Option.bind_eq_bind, Option.bind_eq_some_iff, timeOf_eq_some_iff,
    BigEndian.unpack_eq_some_iff, Option.some.injEq, encodeTimeBin]
  constructor
  · rintro ⟨micros, packed, t, rfl, shown⟩
    exact ⟨t, packed, shown⟩
  · rintro ⟨t, packed, shown⟩
    exact ⟨t.micros, packed, t, rfl, shown⟩

theorem decodeTimestamp_eq_some_iff {data : List UInt8} {text : Text} :
    decodeTimestamp data = some text ↔
      ∃ w, microsSinceEpoch w = some data ∧ isoWall w = text := by
  simp only [decodeTimestamp, Option.bind_eq_bind, Option.bind_eq_some_iff, wallOf_eq_some_iff,
    BigEndian.unpack_eq_some_iff, Option.some.injEq, microsSinceEpoch]
  constructor
  · rintro ⟨micros, packed, w, stands, shown⟩
    have same : w.micros - PG_EPOCH.micros = micros := by omega
    exact ⟨w, by rw [same, packed], shown⟩
  · rintro ⟨w, packed, shown⟩
    exact ⟨_, packed, w, by omega, shown⟩

theorem days_total : (Calendar.yearLengths 9999).sum = 3652059 := by decide +kernel

theorem number_range (d : Date) : d.number < 3652059 := by
  have bound := Calendar.number_lt d
  rwa [days_total] at bound

theorem epoch_number : PG_EPOCH_DATE.number = 730119 := by decide +kernel

theorem epoch_micros : PG_EPOCH.micros = 730119 * perDay := by
  rw [Wall.micros, PG_EPOCH, midnight]
  simp only [Time.micros, epoch_number]
  omega

/-- There is room for every date. -/
theorem encodeDateBin_isSome (d : Date) : (encodeDateBin d).isSome = true := by
  have range := number_range d
  rw [encodeDateBin, BigEndian.pack, epoch_number, if_pos (by rw [BigEndian.Signed]; omega)]
  rfl

theorem encodeTimeBin_isSome (t : Time) : (encodeTimeBin t).isSome = true := by
  have range := micros_lt t
  rw [perDay] at range
  rw [encodeTimeBin, BigEndian.pack, if_pos (by rw [BigEndian.Signed]; omega)]
  rfl

theorem microsSinceEpoch_isSome (w : Wall) : (microsSinceEpoch w).isSome = true := by
  have date := number_range w.date
  have time := micros_lt w.time
  rw [microsSinceEpoch, BigEndian.pack, epoch_micros, Wall.micros, if_pos]
  · rfl
  · rw [perDay] at time ⊢
    rw [BigEndian.Signed]
    omega

/-! ## Instants -/

/-- The moment that a datetime is, where a naive one is in UTC. -/
def DateTime.instant (v : DateTime) : Int :=
  v.wall.micros - match v.offset with
    | none => 0
    | some offset => offset.micros

theorem utc_eq_some_iff {v : DateTime} {w : Wall} : v.utc = some w ↔ w.micros = v.instant := by
  rw [DateTime.utc, DateTime.instant]
  split
  · rw [Option.some.injEq, Int.sub_zero]
    constructor
    · rintro rfl
      rfl
    · intro same
      exact (Option.some.inj ((wallOf_eq_some_iff.mpr rfl).symm.trans
        (wallOf_eq_some_iff.mpr same.symm))).symm
  · exact wallOf_eq_some_iff

/-- The microseconds of the years from 1 to 9999. -/
def InYears (micros : Int) : Prop := 0 ≤ micros ∧ micros < 3652059 * perDay

theorem exists_wall {micros : Int} (inside : InYears micros) : ∃ w : Wall, w.micros = micros := by
  obtain ⟨low, high⟩ := inside
  have days : (micros / perDay).toNat < (Calendar.yearLengths 9999).sum := by
    rw [days_total, perDay] at *
    omega
  obtain ⟨date, number⟩ := Calendar.exists_number_iff.mpr days
  have rest : 0 ≤ micros % perDay ∧ micros % perDay < perDay :=
    ⟨Int.emod_nonneg _ (by decide), Int.emod_lt_of_pos _ (by decide)⟩
  obtain ⟨time, found⟩ : ∃ t, timeOf (micros % perDay) = some t := by
    generalize micros % perDay = m at rest ⊢
    rw [perDay] at rest
    exact ⟨⟨(m / 10 ^ 6 / 60 / 60).toNat, (m / 10 ^ 6 / 60 % 60).toNat, (m / 10 ^ 6 % 60).toNat,
      (m % 10 ^ 6).toNat, by omega, by omega, by omega, by omega⟩, time_eq_some_iff.mpr
        ⟨by simp only; omega, by simp only; omega, by simp only; omega, by simp only; omega⟩⟩
  refine ⟨⟨date, time⟩, ?_⟩
  have whole : micros / perDay * perDay + micros % perDay = micros := Int.ediv_mul_add_emod ..
  have high : 0 ≤ micros / perDay := Int.ediv_nonneg low (by decide)
  rw [Wall.micros, timeOf_eq_some_iff.mp found, number, Int.toNat_of_nonneg high, whole]

theorem microsSinceEpoch_inj {v w : Wall} {data : List UInt8}
    (packed : microsSinceEpoch v = some data) (packed' : microsSinceEpoch w = some data) :
    v = w := by
  rw [microsSinceEpoch, ← BigEndian.unpack_eq_some_iff] at packed packed'
  have same : v.micros = w.micros := by
    have parts := Option.some.inj (packed.symm.trans packed')
    omega
  exact Option.some.inj ((wallOf_eq_some_iff.mpr rfl).symm.trans
    (wallOf_eq_some_iff.mpr same.symm))

theorem encodeTimestamptzBin_eq_some_iff {v : DateTime} {data : List UInt8} :
    encodeTimestamptzBin v = some data ↔
      ∃ w : Wall, w.micros = v.instant ∧ microsSinceEpoch w = some data := by
  simp only [encodeTimestamptzBin, Option.bind_eq_bind, Option.bind_eq_some_iff, utc_eq_some_iff]

/-- With a time zone the bytes stand for the moment and nothing else, and are read back as what
the clocks show in UTC then. -/
theorem timestamptz_instant_iff {v : DateTime} (inside : InYears v.instant) (w : DateTime) :
    (encodeTimestamptzBin v = encodeTimestamptzBin w ↔ v.instant = w.instant) ∧
      ∃ data utc, encodeTimestamptzBin v = some data ∧ Wall.micros utc = v.instant ∧
        decodeTimestamp data = some (isoWall utc) := by
  obtain ⟨utc, stands⟩ := exists_wall inside
  obtain ⟨data, packed⟩ := Option.isSome_iff_exists.mp (microsSinceEpoch_isSome utc)
  have encoded := encodeTimestamptzBin_eq_some_iff.mpr ⟨utc, stands, packed⟩
  refine ⟨⟨fun same => ?_, fun same => ?_⟩, data, utc, encoded, stands, ?_⟩
  · rw [encoded] at same
    obtain ⟨utc', stands', packed'⟩ := encodeTimestamptzBin_eq_some_iff.mp same.symm
    rw [← stands, ← stands', microsSinceEpoch_inj packed packed']
  · rw [encoded]
    exact (encodeTimestamptzBin_eq_some_iff.mpr ⟨utc, stands.trans same, packed⟩).symm
  · exact decodeTimestamp_eq_some_iff.mpr ⟨utc, packed, rfl⟩

/-- Noon in UTC, and one o'clock an hour ahead of it. -/
def noon : DateTime :=
  ⟨⟨PG_EPOCH_DATE, ⟨12, 0, 0, 0, by decide, by decide, by decide, by decide⟩⟩, none⟩

def oneAhead : DateTime :=
  ⟨⟨PG_EPOCH_DATE, ⟨13, 0, 0, 0, by decide, by decide, by decide, by decide⟩⟩,
    some ⟨3600 * 10 ^ 6, by decide⟩⟩

theorem noon_oneAhead : encodeTimestamptzBin noon = encodeTimestamptzBin oneAhead :=
  (timestamptz_instant_iff ⟨by decide +kernel, by decide +kernel⟩ oneAhead).1.mpr
    (by decide +kernel)

end PgMimic.Temporal
