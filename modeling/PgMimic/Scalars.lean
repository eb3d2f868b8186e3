import PgMimic.Arrays
import PgMimic.Temporal

/-!
# The scalar codecs

A value goes to the client as text or, if it asks for that, in the binary format of the
column's type, and binary parameters become the text that the same value would have been. What
Python's conversions make of a value of another type than the column's is left open.
-/

namespace PgMimic.Scalars

open PgMimic.Copy (Text)
open PgMimic.Intervals (TimeDelta intText timedeltaOut)
open PgMimic.Temporal (Date Time DateTime Wall)

abbrev Bytes := List UInt8

/-! ## Types -/

def BOOL : Nat := 16
def BYTEA : Nat := 17
def NAME : Nat := 19
def INT8 : Nat := 20
def INT2 : Nat := 21
def INT4 : Nat := 23
def TEXT : Nat := 25
def OID : Nat := 26
def JSON : Nat := 114
def FLOAT4 : Nat := 700
def FLOAT8 : Nat := 701
def BPCHAR : Nat := 1042
def VARCHAR : Nat := 1043
def DATE : Nat := 1082
def TIME : Nat := 1083
def TIMESTAMP : Nat := 1114
def TIMESTAMPTZ : Nat := 1184
def INTERVAL : Nat := 1186
def NUMERIC : Nat := 1700
def UUID : Nat := 2950
def JSONB : Nat := 3802

/-! ## Values -/

/-- A float, by its bits. -/
abbrev Float64 := UInt64

abbrev Uuid := { data : Bytes // data.length = 16 }

/-- A Python value. Of an object of any other type there is what `str` makes of it, and
`json.dumps` if it can. -/
inductive Scalar where
  | bool (b : Bool)
  | int (n : Int)
  | float (bits : Float64)
  | decimal (d : Numeric.Value)
  | str (text : Text)
  | bytes (data : Bytes)
  | datetime (v : DateTime)
  | date (d : Date)
  | time (t : Time)
  | timedelta (v : TimeDelta)
  | uuid (u : Uuid)
  | other (shown : Text) (dumped : Option Text)

/-- Python's own conversions: of floats, and of values that have not the type already. -/
structure Python where
  repr : Float64 → Text
  /-- What `struct` keeps of a float in four bytes, unless it is too large. -/
  narrow : Float64 → Option UInt32
  widen : UInt32 → Float64
  truth : Scalar → Bool
  int : Scalar → Option Int
  float : Scalar → Option Float64
  /-- `Decimal(str(v))`. -/
  decimal : Scalar → Option Numeric.Value
  bytes : Scalar → Option Bytes
  /-- `uuid.UUID(str(v))`. -/
  uuid : Scalar → Option Uuid

/-! ## Text -/

def boolOut (b : Bool) : Text := if b then ['t'] else ['f']

/-- `bytes.hex`. -/
def hex (data : Bytes) : Text :=
  data.flatMap fun byte => [Nat.digitChar (byte.toNat / 16), Nat.digitChar (byte.toNat % 16)]

/-- `_bytes_out`. -/
def bytesOut (data : Bytes) : Text := '\\' :: 'x' :: hex data

/-- `v != v`. -/
def isNaN (v : Float64) : Bool := 0x7FF0000000000000 < v.toNat % 2 ^ 63

/-- `str` of a UUID. -/
def uuidOut (u : Uuid) : Text :=
  let digits := hex u.1
  digits.take 8 ++ '-' :: ((digits.drop 8).take 4 ++ '-' :: ((digits.drop 12).take 4 ++ '-' ::
    ((digits.drop 16).take 4 ++ '-' :: digits.drop 20)))

section Codecs

variable (py : Python)

/-- `_float_out`. -/
def floatOut (v : Float64) : Text :=
  if isNaN v then "NaN".toList
  else if v = 0x7FF0000000000000 then "Infinity".toList
  else if v = 0xFFF0000000000000 then "-Infinity".toList
  else py.repr v

/-- `encode_value`. -/
def encodeValue (oid : Nat) : Scalar → Option Text
  | .bool b => some (boolOut b)
  | .int n => some (intText n)
  | .float v => some (floatOut py v)
  | .decimal d => some (Numeric.decimalOut d)
  | .str text => some text
  | .bytes data => some (bytesOut data)
  | .datetime v => some (Temporal.datetimeOut v)
  | .date d => some (Temporal.isoDate d)
  | .time t => some (Temporal.isoTime t)
  | .timedelta v => some (timedeltaOut v)
  | .uuid u => some (uuidOut u)
  | .other shown dumped => if oid = JSON ∨ oid = JSONB then dumped else some shown

/-! ## Binary results -/

def truth : Scalar → Bool
  | .bool b => b
  | v => py.truth v

def encodeBoolBin (v : Scalar) : Option Bytes := some (if truth py v then [1] else [0])

/-- `int(v)`. -/
def intOf : Scalar → Option Int
  | .bool b => some (if b then 1 else 0)
  | .int n => some n
  | v => py.int v

/-- `_encode_int_bin`, of so many bytes. -/
def encodeIntBin (width : Nat) (v : Scalar) : Option Bytes := do
  let n ← intOf py v
  BigEndian.pack width n

def encodeOidBin (v : Scalar) : Option Bytes := do
  let n ← intOf py v
  BigEndian.packUnsigned 4 n

/-- `float(v)`. -/
def floatOf : Scalar → Option Float64
  | .float bits => some bits
  | v => py.float v

def encodeFloat4Bin (v : Scalar) : Option Bytes := do
  let bits ← floatOf py v
  let single ← py.narrow bits
  some (BigEndian.bytesOf 4 single.toNat)

def encodeFloat8Bin (v : Scalar) : Option Bytes := do
  let bits ← floatOf py v
  some (BigEndian.bytesOf 8 bits.toNat)

/-- `_encode_bytea_bin`. -/
def encodeByteaBin : Scalar → Option Bytes
  | .bytes data => some data
  | v => py.bytes v

/-- `_encode_text_bin`. -/
def encodeTextBin (v : Scalar) : Option Bytes := (encodeValue py TEXT v).map Utf8.encode

/-- `_encode_date_bin`: of a datetime its date is taken, and nothing else can be subtracted. -/
def encodeDateBin : Scalar → Option Bytes
  | .date d => Temporal.encodeDateBin d
  | .datetime v => Temporal.encodeDateBin v.wall.date
  | _ => none

/-- A date is the midnight it begins with. -/
def datetimeOf : Scalar → Option DateTime
  | .datetime v => some v
  | .date d => some ⟨Temporal.midnight d, none⟩
  | _ => none

def encodeTimestampBin (v : Scalar) : Option Bytes := do
  let v ← datetimeOf v
  Temporal.encodeTimestampBin v

def encodeTimestamptzBin (v : Scalar) : Option Bytes := do
  let v ← datetimeOf v
  Temporal.encodeTimestamptzBin v

/-- `_encode_numeric_bin`. -/
def encodeNumericBin : Scalar → Option Bytes
  | .decimal d => Numeric.encodeNumericBin d
  | v => do
    let d ← py.decimal v
    Numeric.encodeNumericBin d

/-- `_encode_time_bin`. -/
def encodeTimeBin : Scalar → Option Bytes
  | .time t => Temporal.encodeTimeBin t
  | _ => none

/-- `_encode_interval_bin`. -/
def encodeIntervalBin : Scalar → Option Bytes
  | .timedelta v => do
    let micros ← BigEndian.pack 8 (v.seconds * 10 ^ 6 + v.microseconds)
    let days ← BigEndian.pack 4 v.days
    let months ← BigEndian.pack 4 0
    some (micros ++ (days ++ months))
  | _ => none

/-- `_encode_uuid_bin`. -/
def encodeUuidBin : Scalar → Option Bytes
  | .uuid u => some u.1
  | v => (py.uuid v).map Subtype.val

/-- `_encode_json_bin`. -/
def encodeJsonBin (v : Scalar) : Option Bytes := (encodeValue py JSON v).map Utf8.encode

def JSONB_VERSION : UInt8 := 1

/-- `_encode_jsonb_bin`. -/
def encodeJsonbBin (v : Scalar) : Option Bytes := (encodeJsonBin py v).map (JSONB_VERSION :: ·)

/-- `_BINARY_ENCODERS`. -/
def BINARY_ENCODERS : List (Nat × (Scalar → Option Bytes)) :=
  [(BOOL, encodeBoolBin py), (INT2, encodeIntBin py 2), (INT4, encodeIntBin py 4),
    (OID, encodeOidBin py), (INT8, encodeIntBin py 8), (FLOAT4, encodeFloat4Bin py),
    (FLOAT8, encodeFloat8Bin py), (BYTEA, encodeByteaBin py), (TEXT, encodeTextBin py),
    (VARCHAR, encodeTextBin py), (BPCHAR, encodeTextBin py), (NAME, encodeTextBin py),
    (DATE, encodeDateBin), (TIMESTAMP, encodeTimestampBin), (TIMESTAMPTZ, encodeTimestamptzBin),
    (INTERVAL, encodeIntervalBin), (NUMERIC, encodeNumericBin py), (TIME, encodeTimeBin),
    (UUID, encodeUuidBin py), (JSON, encodeJsonBin py), (JSONB, encodeJsonbBin py)]

/-- `encode_value_binary`, of a type that is no array. -/
def encodeValueBinary (oid : Nat) (v : Scalar) : Option Bytes := do
  let encoder ← (BINARY_ENCODERS py).lookup oid
  encoder v

/-! ## Binary parameters -/

def decodeBool (data : Bytes) : Option Text := some (boolOut (data ≠ [0]))

/-- `_decode_int`, of so many bytes. -/
def decodeInt (width : Nat) (data : Bytes) : Option Text :=
  (BigEndian.unpack width data).map intText

def decodeOid (data : Bytes) : Option Text := (BigEndian.unpackUnsigned 4 data).map intText

def decodeFloat4 (data : Bytes) : Option Text :=
  if data.length = 4 then some (floatOut py (py.widen (UInt32.ofNat (BigEndian.value data))))
  else none

def decodeFloat8 (data : Bytes) : Option Text :=
  if data.length = 8 then some (floatOut py (UInt64.ofNat (BigEndian.value data))) else none

def decodeBytea (data : Bytes) : Option Text := some (bytesOut data)

def decodeUuid (data : Bytes) : Option Text :=
  if long : data.length = 16 then some (uuidOut ⟨data, long⟩) else none

def decodeJsonb : Bytes → Option Text
  | [] => none
  | version :: data => if version = JSONB_VERSION then Utf8.whole data else none

/-- `_BINARY_DECODERS`. -/
def BINARY_DECODERS : List (Nat × (Bytes → Option Text)) :=
  [(BOOL, decodeBool), (INT2, decodeInt 2), (INT4, decodeInt 4), (OID, decodeOid),
    (INT8, decodeInt 8), (FLOAT4, decodeFloat4 py), (FLOAT8, decodeFloat8 py),
    (BYTEA, decodeBytea), (TEXT, Utf8.whole), (VARCHAR, Utf8.whole), (BPCHAR, Utf8.whole),
    (NAME, Utf8.whole), (DATE, Temporal.decodeDate), (TIMESTAMP, Temporal.decodeTimestamp),
    (TIMESTAMPTZ, Temporal.decodeTimestamp), (INTERVAL, Intervals.decodeInterval),
    (NUMERIC, Numeric.decodeNumeric), (TIME, Temporal.decodeTime), (UUID, decodeUuid),
    (JSON, Utf8.whole), (JSONB, decodeJsonb)]

/-- `decode_binary_param`, of a type that is no array. -/
def decodeBinaryParam (oid : Nat) (data : Bytes) : Option Text := do
  let decoder ← (BINARY_DECODERS py).lookup oid
  decoder data

end Codecs

/-! ## The type of a value -/

/-- What there is in a column of a type. -/
inductive Kind where
  | bool
  | int
  | float
  | bytes
  | date
  | timestamp
  | time
  | interval
  | uuid
  | text
  | json
deriving DecidableEq

/-- NUMERIC and FLOAT4 are not among them: the decoder rounds the one, the encoder the other. -/
def KINDS : List (Nat × Kind) :=
  [(BOOL, .bool), (INT2, .int), (INT4, .int), (OID, .int), (INT8, .int), (FLOAT8, .float),
    (BYTEA, .bytes), (DATE, .date), (TIMESTAMP, .timestamp), (TIMESTAMPTZ, .timestamp),
    (TIME, .time), (INTERVAL, .interval), (UUID, .uuid), (TEXT, .text), (VARCHAR, .text),
    (BPCHAR, .text), (NAME, .text), (JSON, .json), (JSONB, .json)]

/-- A value is of the Python type of its column, a datetime without a time zone also where the
column has one. Any value is a text, or a document as far as `json.dumps` knows it. -/
inductive Kind.Has : Kind → Scalar → Prop
  | bool (b : Bool) : Has .bool (.bool b)
  | int (n : Int) : Has .int (.int n)
  | float (v : Float64) : Has .float (.float v)
  | bytes (data : Bytes) : Has .bytes (.bytes data)
  | date (d : Date) : Has .date (.date d)
  | timestamp (w : Wall) : Has .timestamp (.datetime ⟨w, none⟩)
  | time (t : Time) : Has .time (.time t)
  | interval (v : TimeDelta) (range : -999999999 ≤ v.days ∧ v.days ≤ 999999999) :
    Has .interval (.timedelta v)
  | uuid (u : Uuid) : Has .uuid (.uuid u)
  | text (v : Scalar) : Has .text v
  | json (v : Scalar) : Has .json v

/-- A column has values of one Python type, and this is one. -/
def Natural (oid : Nat) (v : Scalar) : Prop := ∃ kind, KINDS.lookup oid = some kind ∧ kind.Has v

theorem mem_kinds {oid : Nat} {kind : Kind} (found : KINDS.lookup oid = some kind) :
    (oid, kind) ∈ KINDS := by
  obtain ⟨before, behind, split, -⟩ := List.lookup_eq_some_iff.mp found
  rw [split]
  exact List.mem_append_right _ List.mem_cons_self

section Formats

variable {py : Python} {oid : Nat} {v : Scalar} {data : Bytes} {text : Text}

theorem encoder_of {encoder : Scalar → Option Bytes}
    (encodes : (BINARY_ENCODERS py).lookup oid = some encoder) (v : Scalar) :
    encodeValueBinary py oid v = encoder v := by
  rw [encodeValueBinary, encodes, Option.bind_eq_bind, Option.bind_some]

theorem decoder_of {decoder : Bytes → Option Text}
    (decodes : (BINARY_DECODERS py).lookup oid = some decoder) (data : Bytes) :
    decodeBinaryParam py oid data = decoder data := by
  rw [decodeBinaryParam, decodes, Option.bind_eq_bind, Option.bind_some]

/-- A type has one encoder and one decoder, which must agree on the value. -/
theorem agree_of (encoder : Scalar → Option Bytes) (decoder : Bytes → Option Text)
    (encodes : (BINARY_ENCODERS py).lookup oid = some encoder)
    (decodes : (BINARY_DECODERS py).lookup oid = some decoder)
    (reads : encoder v = some data → decoder data = encodeValue py oid v)
    (encoded : encodeValueBinary py oid v = some data) :
    decodeBinaryParam py oid data = encodeValue py oid v := by
  rw [encoder_of encodes] at encoded
  rw [decoder_of decodes]
  exact reads encoded

theorem decodeInt_of_packed {width : Nat} {n : Int} (packed : BigEndian.pack width n = some data) :
    decodeInt width data = some (intText n) := by
  rw [decodeInt, BigEndian.unpack_eq_some_iff.mpr packed, Option.map_some]

theorem decodeOid_of_packed {n : Int} (packed : BigEndian.packUnsigned 4 n = some data) :
    decodeOid data = some (intText n) := by
  rw [decodeOid, BigEndian.unpackUnsigned_eq_some_iff.mpr packed, Option.map_some]

theorem value_bits (v : Float64) :
    UInt64.ofNat (BigEndian.value (BigEndian.bytesOf 8 v.toNat)) = v := by
  have bound := v.toNat_lt
  rw [BigEndian.value_bytesOf, Nat.mod_eq_of_lt (by omega), UInt64.ofNat_toNat]

theorem whole_encode (text : Text) : Utf8.whole (Utf8.encode text) = some text :=
  Utf8.whole_eq_some_iff.mpr rfl

/-- Of the type a text only depends on whether it is a document's. -/
theorem encodeValue_plain (plain : ¬(oid = JSON ∨ oid = JSONB)) (v : Scalar) :
    encodeValue py oid v = encodeValue py TEXT v := by
  cases v with
  | other shown dumped =>
    rw [encodeValue, encodeValue, if_neg plain, if_neg (by decide)]
  | _ => rfl

theorem encodeValue_document (document : oid = JSON ∨ oid = JSONB) (v : Scalar) :
    encodeValue py oid v = encodeValue py JSON v := by
  cases v with
  | other shown dumped =>
    rw [encodeValue, encodeValue, if_pos document, if_pos (.inl rfl)]
  | _ => rfl

/-! ## Agreement -/

theorem encodeTimestampBin_naive (w : Wall) :
    encodeTimestampBin (.datetime ⟨w, none⟩) = Temporal.microsSinceEpoch w := by
  rw [encodeTimestampBin, datetimeOf, Option.bind_eq_bind, Option.bind_some,
    Temporal.encodeTimestampBin]

theorem encodeTimestamptzBin_naive (w : Wall) :
    encodeTimestamptzBin (.datetime ⟨w, none⟩) = Temporal.microsSinceEpoch w := by
  rw [encodeTimestamptzBin, datetimeOf, Option.bind_eq_bind, Option.bind_some,
    Temporal.encodeTimestamptzBin, DateTime.utc, Option.bind_eq_bind, Option.bind_some]

theorem packed_spec {width : Nat} {n : Int} (packed : BigEndian.pack width n = some data) :
    data.length = width ∧ Intervals.signed data = n := by
  have read := BigEndian.unpack_eq_some_iff.mpr packed
  rw [BigEndian.unpack] at read
  split at read
  case isTrue long => exact ⟨long, Option.some.inj read⟩
  case isFalse => cases read

theorem timedelta_ext {v w : TimeDelta} (days : v.days = w.days) (seconds : v.seconds = w.seconds)
    (microseconds : v.microseconds = w.microseconds) : v = w := by
  cases v
  cases w
  subst days seconds microseconds
  rfl

theorem ofMicroseconds_parts {v : TimeDelta} (range : -999999999 ≤ v.days ∧ v.days ≤ 999999999) :
    Intervals.timedelta v.days (v.seconds * 10 ^ 6 + v.microseconds) = some v := by
  have seconds := v.seconds_lt
  have microseconds := v.microseconds_lt
  have days : (v.days * Intervals.perDay + (v.seconds * 10 ^ 6 + v.microseconds)) /
      Intervals.perDay = v.days := by
    rw [Intervals.perDay]
    omega
  cases sum : Intervals.timedelta v.days (v.seconds * 10 ^ 6 + v.microseconds) with
  | none =>
    rw [Intervals.timedelta, Intervals.ofMicroseconds, days, if_pos range] at sum
    cases sum
  | some u =>
    have total := Intervals.ofMicroseconds_total sum
    have seconds' := u.seconds_lt
    have microseconds' := u.microseconds_lt
    rw [Intervals.perDay] at total
    exact congrArg some (timedelta_ext (by omega) (by omega) (by omega))

/-- What is packed of a timedelta is an interval without months that comes to the timedelta. -/
theorem decodeInterval_encoded {v : TimeDelta} (range : -999999999 ≤ v.days ∧ v.days ≤ 999999999)
    (encoded : encodeIntervalBin (.timedelta v) = some data) :
    Intervals.decodeInterval data = some (timedeltaOut v) := by
  simp only [encodeIntervalBin, Option.bind_eq_bind, Option.bind_eq_some_iff,
    Option.some.injEq] at encoded
  obtain ⟨micros, packed, days, packed', months, packed'', rfl⟩ := encoded
  obtain ⟨eight, total⟩ := packed_spec packed
  obtain ⟨four, whole⟩ := packed_spec packed'
  obtain ⟨last, none_⟩ := packed_spec packed''
  have long : (micros ++ (days ++ months)).length = 16 := by
    simp only [List.length_append]
    omega
  have read : Intervals.unpackInterval (micros ++ (days ++ months)) =
      some ⟨v.seconds * 10 ^ 6 + v.microseconds, v.days, 0⟩ := by
    have second : (micros ++ (days ++ months)).drop 8 = days ++ months := List.drop_left' eight
    have third : (micros ++ (days ++ months)).drop 12 = months := by
      rw [← List.append_assoc]
      exact List.drop_left' (by rw [List.length_append, eight, four])
    rw [Intervals.unpackInterval, if_pos long, second, third, List.take_left' eight,
      List.take_left' four, total, whole, none_]
  rw [Intervals.decodeInterval, read, Option.bind_eq_bind, Option.bind_some,
    Intervals.Interval.text]
  simp only [ofMicroseconds_parts range, Option.bind_eq_bind, Option.bind_some, if_true]

theorem decodeBool_encoded {b : Bool} (encoded : encodeBoolBin py (.bool b) = some data) :
    decodeBool data = some (boolOut b) := by
  obtain rfl := Option.some.inj encoded
  cases b <;> rfl

theorem decodeJsonb_encoded (encoded : encodeJsonbBin py v = some data) :
    decodeJsonb data = encodeValue py JSON v := by
  obtain ⟨bytes, document, rfl⟩ := Option.map_eq_some_iff.mp encoded
  obtain ⟨text, shown, rfl⟩ := Option.map_eq_some_iff.mp document
  rw [decodeJsonb, if_pos rfl, whole_encode, shown]

theorem whole_encoded (encoded : (encodeValue py oid v).map Utf8.encode = some data) :
    Utf8.whole data = encodeValue py oid v := by
  obtain ⟨text, shown, rfl⟩ := Option.map_eq_some_iff.mp encoded
  rw [whole_encode, shown]

theorem decodeFloat8_encoded {bits : Float64}
    (encoded : encodeFloat8Bin py (.float bits) = some data) :
    decodeFloat8 py data = some (floatOut py bits) := by
  obtain rfl := Option.some.inj encoded
  rw [decodeFloat8, if_pos (BigEndian.length_bytesOf _ _), value_bits]

theorem decodeBytea_encoded {stored : Bytes}
    (encoded : encodeByteaBin py (.bytes stored) = some data) :
    decodeBytea data = some (bytesOut stored) := by
  obtain rfl := Option.some.inj encoded
  rfl

theorem decodeUuid_encoded {u : Uuid} (encoded : encodeUuidBin py (.uuid u) = some data) :
    decodeUuid data = some (uuidOut u) := by
  obtain rfl := Option.some.inj encoded
  exact dif_pos u.2

theorem timestamp_encoded {w : Wall} (encoded : Temporal.microsSinceEpoch w = some data) :
    Temporal.decodeTimestamp data = encodeValue py oid (.datetime ⟨w, none⟩) := by
  have shown : encodeValue py oid (.datetime ⟨w, none⟩) = some (Temporal.isoWall w) :=
    congrArg some (List.append_nil _)
  rw [shown]
  exact Temporal.decodeTimestamp_eq_some_iff.mpr ⟨w, encoded, rfl⟩

/-- A column of texts. -/
theorem text_agrees (plain : ¬(oid = JSON ∨ oid = JSONB))
    (encoded : encodeTextBin py v = some data) :
    Utf8.whole data = encodeValue py oid v := by
  rw [whole_encoded encoded, encodeValue_plain plain]

theorem jsonb_agrees (encoded : encodeJsonbBin py v = some data) :
    decodeJsonb data = encodeValue py JSONB v := by
  rw [decodeJsonb_encoded encoded, encodeValue_document (.inr rfl)]

/-- In binary a value is what it is in text. -/
theorem decoded_encoded (natural : Natural oid v)
    (encoded : encodeValueBinary py oid v = some data) :
    decodeBinaryParam py oid data = encodeValue py oid v := by
  obtain ⟨kind, found, has⟩ := natural
  have listed := mem_kinds found
  cases has with
  | bool b =>
    obtain rfl : oid = BOOL := by simpa [KINDS] using listed
    exact agree_of (encodeBoolBin py) decodeBool rfl rfl decodeBool_encoded encoded
  | int n =>
    obtain rfl | rfl | rfl | rfl : oid = INT2 ∨ oid = INT4 ∨ oid = OID ∨ oid = INT8 := by
      simpa [KINDS] using listed
    · exact agree_of (encodeIntBin py 2) (decodeInt 2) rfl rfl decodeInt_of_packed encoded
    · exact agree_of (encodeIntBin py 4) (decodeInt 4) rfl rfl decodeInt_of_packed encoded
    · exact agree_of (encodeOidBin py) decodeOid rfl rfl decodeOid_of_packed encoded
    · exact agree_of (encodeIntBin py 8) (decodeInt 8) rfl rfl decodeInt_of_packed encoded
  | float bits =>
    obtain rfl : oid = FLOAT8 := by simpa [KINDS] using listed
    exact agree_of (encodeFloat8Bin py) (decodeFloat8 py) rfl rfl decodeFloat8_encoded encoded
  | bytes stored =>
    obtain rfl : oid = BYTEA := by simpa [KINDS] using listed
    exact agree_of (encodeByteaBin py) decodeBytea rfl rfl decodeBytea_encoded encoded
  | date d =>
    obtain rfl : oid = DATE := by simpa [KINDS] using listed
    refine agree_of encodeDateBin Temporal.decodeDate rfl rfl (fun encoded => ?_) encoded
    exact Temporal.decodeDate_eq_some_iff.mpr ⟨d, encoded, rfl⟩
  | timestamp w =>
    obtain rfl | rfl : oid = TIMESTAMP ∨ oid = TIMESTAMPTZ := by simpa [KINDS] using listed
    · refine agree_of encodeTimestampBin Temporal.decodeTimestamp rfl rfl (fun encoded => ?_)
        encoded
      rw [encodeTimestampBin_naive] at encoded
      exact timestamp_encoded encoded
    · refine agree_of encodeTimestamptzBin Temporal.decodeTimestamp rfl rfl (fun encoded => ?_)
        encoded
      rw [encodeTimestamptzBin_naive] at encoded
      exact timestamp_encoded encoded
  | time t =>
    obtain rfl : oid = TIME := by simpa [KINDS] using listed
    refine agree_of encodeTimeBin Temporal.decodeTime rfl rfl (fun encoded => ?_) encoded
    exact Temporal.decodeTime_eq_some_iff.mpr ⟨t, encoded, rfl⟩
  | interval v range =>
    obtain rfl : oid = INTERVAL := by simpa [KINDS] using listed
    exact agree_of encodeIntervalBin Intervals.decodeInterval rfl rfl
      (decodeInterval_encoded range) encoded
  | uuid u =>
    obtain rfl : oid = UUID := by simpa [KINDS] using listed
    exact agree_of (encodeUuidBin py) decodeUuid rfl rfl decodeUuid_encoded encoded
  | text v =>
    obtain rfl | rfl | rfl | rfl : oid = TEXT ∨ oid = VARCHAR ∨ oid = BPCHAR ∨ oid = NAME := by
      simpa [KINDS] using listed
    · exact agree_of (encodeTextBin py) Utf8.whole rfl rfl (text_agrees (by decide)) encoded
    · exact agree_of (encodeTextBin py) Utf8.whole rfl rfl (text_agrees (by decide)) encoded
    · exact agree_of (encodeTextBin py) Utf8.whole rfl rfl (text_agrees (by decide)) encoded
    · exact agree_of (encodeTextBin py) Utf8.whole rfl rfl (text_agrees (by decide)) encoded
  | json v =>
    obtain rfl | rfl : oid = JSON ∨ oid = JSONB := by simpa [KINDS] using listed
    · exact agree_of (encodeJsonBin py) Utf8.whole rfl rfl whole_encoded encoded
    · exact agree_of (encodeJsonbBin py) decodeJsonb rfl rfl jsonb_agrees encoded

/-- What has a binary form has a text. -/
theorem encodeValue_isSome (natural : Natural oid v)
    (encoded : encodeValueBinary py oid v = some data) :
    (encodeValue py oid v).isSome = true := by
  obtain ⟨kind, found, has⟩ := natural
  have listed := mem_kinds found
  cases has with
  | text v =>
    have plain : ¬(oid = JSON ∨ oid = JSONB) := by
      rintro (rfl | rfl) <;> exact absurd found (by decide)
    cases v with
    | other shown dumped => exact congrArg Option.isSome (if_neg plain)
    | _ => rfl
  | json v =>
    obtain rfl | rfl : oid = JSON ∨ oid = JSONB := by simpa [KINDS] using listed
    · obtain ⟨text, shown, -⟩ := Option.map_eq_some_iff.mp encoded
      exact Option.isSome_iff_exists.mpr ⟨text, shown⟩
    · obtain ⟨bytes, document, -⟩ := Option.map_eq_some_iff.mp encoded
      obtain ⟨text, shown, -⟩ := Option.map_eq_some_iff.mp document
      rw [encodeValue_document (.inr rfl)]
      exact Option.isSome_iff_exists.mpr ⟨text, shown⟩
  | _ => rfl

/-- No conversion is called for, and no float. -/
def noConversions : Python where
  repr := fun _ => []
  narrow := fun _ => none
  widen := fun _ => 0
  truth := fun _ => true
  int := fun _ => none
  float := fun _ => none
  decimal := fun _ => none
  bytes := fun _ => none
  uuid := fun _ => none

def leapDay : Date := ⟨2024, 2, 29, by decide, by decide, by decide⟩

/-! ## What is accepted -/

/-- A type has one decoder and one encoder, from which everything it accepts must come. -/
theorem comes_of {kind : Kind} (found : KINDS.lookup oid = some kind)
    (encoder : Scalar → Option Bytes) (decoder : Bytes → Option Text)
    (encodes : (BINARY_ENCODERS py).lookup oid = some encoder)
    (decodes : (BINARY_DECODERS py).lookup oid = some decoder)
    (comes : decoder data = some text →
      ∃ v, kind.Has v ∧ encoder v = some data ∧ encodeValue py oid v = some text)
    (read : decodeBinaryParam py oid data = some text) :
    ∃ v, Natural oid v ∧ encodeValueBinary py oid v = some data ∧
      encodeValue py oid v = some text := by
  rw [decoder_of decodes] at read
  obtain ⟨v, has, encoded, shown⟩ := comes read
  exact ⟨v, ⟨kind, found, has⟩, (encoder_of encodes v).trans encoded, shown⟩

theorem int_comes {width : Nat} (read : decodeInt width data = some text) :
    ∃ v, Kind.int.Has v ∧ encodeIntBin py width v = some data ∧
      encodeValue py oid v = some text := by
  obtain ⟨n, unpacked, rfl⟩ := Option.map_eq_some_iff.mp read
  exact ⟨.int n, .int n, BigEndian.unpack_eq_some_iff.mp unpacked, rfl⟩

theorem oid_comes (read : decodeOid data = some text) :
    ∃ v, Kind.int.Has v ∧ encodeOidBin py v = some data ∧ encodeValue py oid v = some text := by
  obtain ⟨n, unpacked, rfl⟩ := Option.map_eq_some_iff.mp read
  exact ⟨.int n, .int n, BigEndian.unpackUnsigned_eq_some_iff.mp unpacked, rfl⟩

theorem bits_value (long : data.length = 8) :
    BigEndian.bytesOf 8 (UInt64.ofNat (BigEndian.value data)).toNat = data := by
  have bound := BigEndian.value_lt data
  rw [long] at bound
  rw [UInt64.toNat_ofNat', Nat.mod_eq_of_lt (by omega), ← long, BigEndian.bytesOf_value]

theorem float_comes (read : decodeFloat8 py data = some text) :
    ∃ v, Kind.float.Has v ∧ encodeFloat8Bin py v = some data ∧
      encodeValue py oid v = some text := by
  rw [decodeFloat8] at read
  split at read
  case isTrue long => exact ⟨_, .float _, congrArg some (bits_value long), read⟩
  case isFalse => cases read

theorem date_comes (read : Temporal.decodeDate data = some text) :
    ∃ v, Kind.date.Has v ∧ encodeDateBin v = some data ∧ encodeValue py oid v = some text := by
  obtain ⟨d, encoded, rfl⟩ := Temporal.decodeDate_eq_some_iff.mp read
  exact ⟨.date d, .date d, encoded, rfl⟩

theorem time_comes (read : Temporal.decodeTime data = some text) :
    ∃ v, Kind.time.Has v ∧ encodeTimeBin v = some data ∧ encodeValue py oid v = some text := by
  obtain ⟨t, encoded, rfl⟩ := Temporal.decodeTime_eq_some_iff.mp read
  exact ⟨.time t, .time t, encoded, rfl⟩

theorem timestamp_comes {encoder : Scalar → Option Bytes}
    (naive : ∀ w, encoder (.datetime ⟨w, none⟩) = Temporal.microsSinceEpoch w)
    (read : Temporal.decodeTimestamp data = some text) :
    ∃ v, Kind.timestamp.Has v ∧ encoder v = some data ∧ encodeValue py oid v = some text := by
  obtain ⟨w, encoded, rfl⟩ := Temporal.decodeTimestamp_eq_some_iff.mp read
  exact ⟨_, .timestamp w, (naive w).trans encoded, congrArg some (List.append_nil _)⟩

theorem uuid_comes (read : decodeUuid data = some text) :
    ∃ v, Kind.uuid.Has v ∧ encodeUuidBin py v = some data ∧ encodeValue py oid v = some text := by
  rw [decodeUuid] at read
  split at read
  case isTrue long => exact ⟨.uuid ⟨data, long⟩, .uuid _, rfl, read⟩
  case isFalse => cases read

theorem text_comes (read : Utf8.whole data = some text) :
    ∃ v, Kind.text.Has v ∧ encodeTextBin py v = some data ∧ encodeValue py oid v = some text := by
  obtain rfl := Utf8.whole_eq_some_iff.mp read
  exact ⟨.str text, .text _, rfl, rfl⟩

theorem json_comes (read : Utf8.whole data = some text) :
    ∃ v, Kind.json.Has v ∧ encodeJsonBin py v = some data ∧ encodeValue py oid v = some text := by
  obtain rfl := Utf8.whole_eq_some_iff.mp read
  exact ⟨.str text, .json _, rfl, rfl⟩

theorem jsonb_comes (read : decodeJsonb data = some text) :
    ∃ v, Kind.json.Has v ∧ encodeJsonbBin py v = some data ∧ encodeValue py oid v = some text := by
  rw [decodeJsonb.eq_def] at read
  split at read
  case h_1 => cases read
  case h_2 version document =>
    split at read
    case isTrue known =>
      obtain rfl := Utf8.whole_eq_some_iff.mp read
      exact ⟨.str text, .json _, by rw [known]; rfl, rfl⟩
    case isFalse => cases read

theorem pack_inj {width : Nat} {n m : Int} (packed : BigEndian.pack width n = some data)
    (packed' : BigEndian.pack width m = some data) : n = m := by
  have read := BigEndian.unpack_eq_some_iff.mpr packed
  rw [BigEndian.unpack_eq_some_iff.mpr packed'] at read
  exact (Option.some.inj read).symm

theorem interval_inj {v w : TimeDelta} (encoded : encodeIntervalBin (.timedelta v) = some data)
    (encoded' : encodeIntervalBin (.timedelta w) = some data) : v = w := by
  simp only [encodeIntervalBin, Option.bind_eq_bind, Option.bind_eq_some_iff,
    Option.some.injEq] at encoded encoded'
  obtain ⟨micros, packed, days, packed', months, packed'', rfl⟩ := encoded
  obtain ⟨micros', repacked, days', repacked', months', repacked'', same⟩ := encoded'
  obtain ⟨first, same⟩ :=
    List.append_inj same ((packed_spec repacked).1.trans (packed_spec packed).1.symm)
  obtain ⟨second, -⟩ :=
    List.append_inj same ((packed_spec repacked').1.trans (packed_spec packed').1.symm)
  subst first second
  have total := pack_inj packed repacked
  have whole := pack_inj packed' repacked'
  have microseconds := v.microseconds_lt
  have microseconds' := w.microseconds_lt
  exact timedelta_ext whole (by omega) (by omega)

theorem bits_inj {v w : Float64} (encoded : encodeFloat8Bin py (.float v) = some data)
    (encoded' : encodeFloat8Bin py (.float w) = some data) : v = w := by
  rw [← value_bits v, ← value_bits w, Option.some.inj (encoded.trans encoded'.symm)]

theorem boolOut_inj {b c : Bool} (same : boolOut b = boolOut c) : b = c := by
  cases b <;> cases c <;> first | rfl | cases same

/-- 8825 days after the start of the year 2000. -/
def later8825 : Date := (Temporal.addDays Temporal.PG_EPOCH_DATE 8825).get (by decide +kernel)

end Formats

end PgMimic.Scalars
