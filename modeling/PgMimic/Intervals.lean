import PgMimic.Numeric

/-!
# Intervals

An interval in binary has microseconds, days and months, each with a sign of its own. The
decoder takes the first two together as one timedelta, so its text tells intervals apart
by their months and by what their days and microseconds come to.
-/

namespace PgMimic.Intervals

open PgMimic.Copy (Text)
open PgMimic.Numeric (rjust)
open Positional

/-! ## The decoder -/

/-- Python's timedelta: only the days have a sign. -/
structure TimeDelta where
  days : Int
  seconds : Nat
  microseconds : Nat
  seconds_lt : seconds < 86400
  microseconds_lt : microseconds < 10 ^ 6

/-- The microseconds of a day. -/
def perDay : Int := 86400 * 10 ^ 6

theorem rest_lt (total : Int) : (total % perDay).toNat / 10 ^ 6 < 86400 := by
  have high : total % perDay < perDay := Int.emod_lt_of_pos total (by decide)
  generalize total % perDay = rest at high ⊢
  rw [perDay] at high
  omega

/-- A number of microseconds, unless it has too many days. -/
def ofMicroseconds (total : Int) : Option TimeDelta :=
  if -999999999 ≤ total / perDay ∧ total / perDay ≤ 999999999 then
    some ⟨total / perDay, (total % perDay).toNat / 10 ^ 6, (total % perDay).toNat % 10 ^ 6,
      rest_lt total, Nat.mod_lt _ (by decide)⟩
  else none

/-- `timedelta(days=..., microseconds=...)`. -/
def timedelta (days microseconds : Int) : Option TimeDelta :=
  ofMicroseconds (days * perDay + microseconds)

/-- A number with zeros in front up to a width. -/
def padded (width n : Nat) : Text := digitText (rjust width (digits 10 n))

/-- `str` of an int. -/
def intText (n : Int) : Text := (if n < 0 then ['-'] else []) ++ digitText (digits 10 n.natAbs)

def TimeDelta.timePart (v : TimeDelta) : Text :=
  padded 2 (v.seconds / 3600) ++ ':' :: (padded 2 (v.seconds % 3600 / 60) ++ ':' ::
    (padded 2 (v.seconds % 3600 % 60) ++
      (if v.microseconds = 0 then [] else '.' :: padded 6 v.microseconds)))

def dayWord (days : Int) : Text := if days = 1 then "day".toList else "days".toList

/-- `_timedelta_out`. -/
def timedeltaOut (v : TimeDelta) : Text :=
  if v.days = 0 then v.timePart
  else intText v.days ++ ' ' :: (dayWord v.days ++ ' ' :: v.timePart)

structure Interval where
  micros : Int
  days : Int
  months : Int
deriving DecidableEq

def Interval.text (v : Interval) : Option Text := do
  let delta ← timedelta v.days v.micros
  some (if v.months = 0 then timedeltaOut delta
    else intText v.months ++ ' ' :: ("mons".toList ++ ' ' :: timedeltaOut delta))

/-- A big-endian integer, sign included. -/
def signed (bytes : List UInt8) : Int :=
  let unsigned := numeral 256 (bytes.map UInt8.toNat)
  if 2 * unsigned < 256 ^ bytes.length then unsigned else (unsigned : Int) - 256 ^ bytes.length

/-- `struct.unpack("!qii", data)`. -/
def unpackInterval (data : List UInt8) : Option Interval :=
  if data.length = 16 then
    some ⟨signed (data.take 8), signed ((data.drop 8).take 4), signed (data.drop 12)⟩
  else none

/-- `_decode_interval`. -/
def decodeInterval (data : List UInt8) : Option Text := do
  let v ← unpackInterval data
  v.text

/-- What the days and the microseconds come to. -/
def Interval.span (v : Interval) : Int := v.days * perDay + v.micros

/-! ## Words -/

theorem padded_small (width n : Nat) : ∀ d ∈ rjust width (digits 10 n), d < 10 := by
  intro d member
  rcases List.mem_append.mp member with zero | digit
  · rw [List.eq_of_mem_replicate zero]
    decide
  · exact digits_lt (by decide) n d digit

theorem length_padded {width n : Nat} (some : 0 < width) (small : n < 10 ^ width) :
    (padded width n).length = width := by
  have short := (length_digits_le (b := 10) (by decide) some).mpr small
  rw [padded, digitText, List.length_map, rjust, List.length_append, List.length_replicate]
  omega

theorem padded_inj {width n m : Nat} (same : padded width n = padded width m) : n = m := by
  have digits' := digitText_inj (padded_small width n) (padded_small width m) same
  have value (n : Nat) : numeral 10 (rjust width (digits 10 n)) = n := by
    rw [rjust, numeral_zeros_append, numeral_digits]
  rw [← value n, digits', value]

theorem digits_small (n : Nat) : ∀ d ∈ digits 10 n, d < 10 := digits_lt (by decide) n

theorem intText_inj {n m : Int} (same : intText n = intText m) : n = m := by
  have plain (n : Int) (rest : Text) : digitText (digits 10 n.natAbs) ≠ '-' :: rest := by
    have front := digitText_plain (digits_small n.natAbs) (digits_ne_nil 10 _) [] rest
    rwa [List.append_nil] at front
  have shown (n : Int) : intText n =
      (if decide (n < 0) then ['-'] else []) ++ digitText (digits 10 n.natAbs) := by
    simp [intText]
  rw [shown n, shown m] at same
  obtain ⟨sign, texts⟩ := sign_inj (plain n) (plain m) same
  have size : n.natAbs = m.natAbs := by
    have digits' := digitText_inj (digits_small _) (digits_small _) texts
    rw [← numeral_digits 10 n.natAbs, digits', numeral_digits]
  have signs : n < 0 ↔ m < 0 := decide_eq_decide.mp sign
  omega

theorem timePart_inj {v w : TimeDelta} (same : v.timePart = w.timePart) :
    v.seconds = w.seconds ∧ v.microseconds = w.microseconds := by
  have bound := v.seconds_lt
  have bound' := w.seconds_lt
  have two (n : Nat) (small : n < 10 ^ 2) : (padded 2 n).length = 2 :=
    length_padded (by decide) small
  rw [TimeDelta.timePart, TimeDelta.timePart] at same
  obtain ⟨hours, same⟩ := List.append_inj same ((two _ (by omega)).trans (two _ (by omega)).symm)
  obtain ⟨minutes, same⟩ :=
    List.append_inj (List.cons.inj same).2 ((two _ (by omega)).trans (two _ (by omega)).symm)
  obtain ⟨seconds, same⟩ :=
    List.append_inj (List.cons.inj same).2 ((two _ (by omega)).trans (two _ (by omega)).symm)
  have hours := padded_inj hours
  have minutes := padded_inj minutes
  have seconds := padded_inj seconds
  refine ⟨by omega, ?_⟩
  split_ifs at same with none none'
  · rw [none, none']
  · exact padded_inj (List.cons.inj same).2

def TimeDelta.words (v : TimeDelta) : List Text :=
  (if v.days = 0 then [] else [intText v.days, dayWord v.days]) ++ [v.timePart]

/-- The words between the blanks of a text. -/
def words (months : Int) (v : TimeDelta) : List Text :=
  (if months = 0 then [] else [intText months, "mons".toList]) ++ v.words

theorem padded_no_blank (width n : Nat) : ' ' ∉ padded width n :=
  not_mem_digitText (by decide) (padded_small width n)

theorem intText_no_blank (n : Int) : ' ' ∉ intText n := by
  have none := not_mem_digitText (c := ' ') (by decide) (digits_small n.natAbs)
  rw [intText]
  split_ifs <;> simp [none]

theorem timePart_no_blank (v : TimeDelta) : ' ' ∉ v.timePart := by
  rw [TimeDelta.timePart]
  split_ifs <;> simp [padded_no_blank]

theorem words_no_blank (months : Int) (v : TimeDelta) : ∀ word ∈ words months v, ' ' ∉ word := by
  have day : ' ' ∉ dayWord v.days := by
    rw [dayWord]
    split_ifs <;> decide
  rw [words, TimeDelta.words, List.forall_mem_append, List.forall_mem_append]
  refine ⟨?_, ?_, ?_⟩
  · split_ifs <;> simp [intText_no_blank]
  · split_ifs <;> simp [intText_no_blank, day]
  · simp [timePart_no_blank]

theorem days_inj {v w : TimeDelta} (same : v.words = w.words) :
    v.days = w.days ∧ v.timePart = w.timePart := by
  rw [TimeDelta.words, TimeDelta.words] at same
  split_ifs at same with none none' none'
  · exact ⟨none.trans none'.symm, (List.cons.inj same).1⟩
  · cases congrArg List.length same
  · cases congrArg List.length same
  · obtain ⟨days, rest⟩ := List.cons.inj same
    exact ⟨intText_inj days, (List.cons.inj (List.cons.inj rest).2).1⟩

/-- The second word tells months from days. -/
theorem words_no_mons (v : TimeDelta) (number : Text) (rest : List Text) :
    v.words ≠ number :: "mons".toList :: rest := by
  have differ : dayWord v.days ≠ "mons".toList := by
    rw [dayWord]
    split_ifs <;> decide
  intro same
  rw [TimeDelta.words] at same
  split_ifs at same
  · cases congrArg List.length same
  · exact differ (List.cons.inj (List.cons.inj same).2).1

theorem words_inj {months months' : Int} {v w : TimeDelta}
    (same : words months v = words months' w) :
    months = months' ∧ v.days = w.days ∧ v.timePart = w.timePart := by
  rw [words, words] at same
  split_ifs at same with none none' none'
  · exact ⟨none.trans none'.symm, days_inj same⟩
  · exact absurd same (words_no_mons v _ _)
  · exact absurd same.symm (words_no_mons w _ _)
  · obtain ⟨number, rest⟩ := List.cons.inj same
    exact ⟨intText_inj number, days_inj (List.cons.inj rest).2⟩

theorem text_eq_words {v : Interval} {delta : TimeDelta}
    (sum : timedelta v.days v.micros = some delta) :
    v.text = some ([' '].intercalate (words v.months delta)) := by
  rw [Interval.text, sum, words, TimeDelta.words]
  simp only [Option.bind_eq_bind, Option.bind_some, timedeltaOut]
  split_ifs <;> simp [List.intercalate]

/-! ## What the text tells -/

theorem ofMicroseconds_total {total : Int} {v : TimeDelta} (sum : ofMicroseconds total = some v) :
    v.days * perDay + (v.seconds * 10 ^ 6 + v.microseconds) = total := by
  rw [ofMicroseconds] at sum
  split_ifs at sum
  obtain rfl := Option.some.inj sum
  have low : 0 ≤ total % perDay := Int.emod_nonneg total (by decide)
  have whole := Int.mul_ediv_add_emod total perDay
  have split := Nat.div_add_mod (total % perDay).toNat (10 ^ 6)
  rw [Int.mul_comm] at whole
  simp only
  omega

/-- Two texts are one exactly if the months are the same and the rest comes to the same. -/
theorem text_eq_iff {a b : Interval} {text text' : Text} (read : a.text = some text)
    (read' : b.text = some text') :
    text = text' ↔ a.months = b.months ∧ a.span = b.span := by
  obtain ⟨v, sum, _⟩ := Option.bind_eq_some_iff.mp read
  obtain ⟨w, sum', _⟩ := Option.bind_eq_some_iff.mp read'
  rw [text_eq_words sum] at read
  rw [text_eq_words sum'] at read'
  obtain rfl := Option.some.inj read
  obtain rfl := Option.some.inj read'
  have total := ofMicroseconds_total sum
  have total' := ofMicroseconds_total sum'
  have some (months : Int) (v : TimeDelta) : words months v ≠ [] := by simp [words, TimeDelta.words]
  constructor
  · intro same
    have split := congrArg (List.splitOn ' ') same
    rw [List.splitOn_intercalate ' ' (words_no_blank _ v) (some _ _),
      List.splitOn_intercalate ' ' (words_no_blank _ w) (some _ _)] at split
    obtain ⟨months, days, time⟩ := words_inj split
    obtain ⟨seconds, microseconds⟩ := timePart_inj time
    refine ⟨months, ?_⟩
    rw [Interval.span, Interval.span, ← total, ← total', days, seconds, microseconds]
  · rintro ⟨months, span⟩
    have same : timedelta a.days a.micros = timedelta b.days b.micros := by
      rw [Interval.span, Interval.span] at span
      rw [timedelta, span, timedelta]
    rw [sum, sum'] at same
    rw [months, Option.some.inj same]

/-- Two intervals that are not refused are told apart exactly if their months differ or
what their days and microseconds come to. -/
theorem intervals_told_apart_iff {data data' : List UInt8} {a b : Interval} {text text' : Text}
    (fields : unpackInterval data = some a) (fields' : unpackInterval data' = some b)
    (read : decodeInterval data = some text) (read' : decodeInterval data' = some text') :
    (a ≠ b → text ≠ text') ↔ a = b ∨ a.months ≠ b.months ∨ a.span ≠ b.span := by
  rw [decodeInterval, fields] at read
  rw [decodeInterval, fields'] at read'
  have same := text_eq_iff (a := a) (b := b) read read'
  rw [← not_and_or, ← same]
  exact imp_iff_not_or.trans (or_congr_left not_not)

/-- 86400000000 microseconds. -/
def hours24 : List UInt8 := [0, 0, 0, 0x14, 0x1D, 0xD7, 0x60, 0, 0, 0, 0, 0, 0, 0, 0, 0]

def oneDay : List UInt8 := [0, 0, 0, 0, 0, 0, 0, 0, 0, 0, 0, 1, 0, 0, 0, 0]

def oneMonth : List UInt8 := [0, 0, 0, 0, 0, 0, 0, 0, 0, 0, 0, 0, 0, 0, 0, 1]

theorem month_told_from_day :
    "1 day 00:00:00".toList ≠ "1 mons 00:00:00".toList :=
  (intervals_told_apart_iff (show unpackInterval oneDay = some ⟨0, 1, 0⟩ by decide)
    (show unpackInterval oneMonth = some ⟨0, 0, 1⟩ by decide) (by decide) (by decide)).mpr
      (Or.inr (Or.inl (by decide))) (by decide)

theorem day_is_hours24 :
    unpackInterval hours24 = some ⟨86400000000, 0, 0⟩ ∧ unpackInterval oneDay = some ⟨0, 1, 0⟩ ∧
      unpackInterval hours24 ≠ unpackInterval oneDay ∧
      decodeInterval hours24 = some "1 day 00:00:00".toList ∧
      decodeInterval oneDay = decodeInterval hours24 := by
  decide

end PgMimic.Intervals
