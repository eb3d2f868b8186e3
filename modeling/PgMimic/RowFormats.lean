import PgMimic.ArrayScalars
import PgMimic.Rounds

/-!
# Rows sent and parameters received

A client chooses a format for every column of a result and for every parameter. A row that is
sent, in any formats, and comes back as parameters in the same ones, comes to the session as
the texts of its values.
-/

namespace PgMimic.RowFormats

open Outcomes (bind_ok)
open PgMimic.Arrays (Item)
open PgMimic.Copy (Text)
open PgMimic.Dispatch (Runtime Types decodeParam decodeParams)
open PgMimic.Endpoint (TextTables)
open PgMimic.IncrementalFetch (Encoders encodeFrom encodeRow formatCodeFor)
open PgMimic.Protocols (Raised ResultColumn Row)
open PgMimic.Scalars

/-- What a row holds: a list is an array only in a column of arrays, and elsewhere whatever `str`
and `json.dumps` make of it. -/
inductive Cell where
  | scalar (v : Scalar)
  | list (value : List (Nested Entry)) (shown : Text) (dumped : Option Text)

/-- What a session is given for a parameter. -/
inductive Param where
  | text (text : Text)
  | list (items : List Item)

def Cell.asScalar : Cell → Scalar
  | .scalar v => v
  | .list _ shown dumped => .other shown dumped

/-- `ELEMENT_OID`. -/
def elementOidOf (oid : Nat) : Option Nat :=
  (Arrays.arrayOids.find? fun entry => entry.2 = oid).map Prod.fst

section Codecs

variable (py : Python) (t : TextTables)

/-- `encode_value`. -/
def encodeValue (oid : Nat) : Cell → Option Text
  | .scalar v => Scalars.encodeValue py oid v
  | .list value shown dumped =>
    match elementOidOf oid with
    | some element => (formatArrayLiteral py t element value).toOption
    | none => Scalars.encodeValue py oid (.other shown dumped)

/-- `encode_value_binary`. -/
def encodeValueBinary (oid : Nat) (cell : Cell) : Option Bytes :=
  match (BINARY_ENCODERS py).lookup oid with
  | some encoder => encoder cell.asScalar
  | none =>
    match cell with
    | .scalar _ => none
    | .list value _ _ =>
      (elementOidOf oid).bind fun element => (encodeArrayBinary py element value).toOption

/-- `decode_text_param`. -/
def decodeTextParam (oid : Nat) (text : Text) : Option Param :=
  match elementOidOf oid with
  | some _ => (Arrays.parseArrayLiteral t text).toOption.map .list
  | none => some (.text text)

/-- `decode_binary_param`. -/
def decodeBinaryParam (depth : Nat) (oid : Nat) (data : Bytes) : Option Param :=
  match (BINARY_DECODERS py).lookup oid with
  | some decoder => (decoder data).map .text
  | none =>
    match elementOidOf oid with
    | some _ => (Arrays.decodeArrayBinary (decoders py) depth data).toOption.map .list
    | none => none

/-- What is raised is not told apart. -/
def orRaised {α : Type} (raised : Raised) : Option α → Except Raised α
  | some a => .ok a
  | none => .error raised

/-- The codecs as the connection calls them; those of COPY are not concerned. -/
def types (depth : Nat) (raised : Raised) (copyText : Cell → Except Failure Text) :
    Types Cell Param where
  encoders :=
    { encodeValue := fun oid cell => orRaised raised ((encodeValue py t oid cell).map Utf8.encode)
      encodeValueBinary := fun oid cell => orRaised raised (encodeValueBinary py oid cell) }
  copyText := copyText
  str := .text
  decodeTextParam := fun oid text => orRaised raised (decodeTextParam t oid.toNat text)
  decodeBinaryParam := fun oid data => orRaised raised (decodeBinaryParam py depth oid.toNat data)

/-- What the session should see of a value. -/
def seen (oid : Nat) : Cell → Option Param
  | .scalar v => (Scalars.encodeValue py oid v).map .text
  | .list value _ _ =>
    (elementOidOf oid).map fun element => .list (value.map (Nested.map (shown py element)))

/-- A cell is of the type of its column. The elements of an array are where the literals of arrays
keep them. -/
inductive Fits (oid : Nat) : Cell → Prop
  | scalar {v : Scalar} (natural : Natural oid v) : Fits oid (.scalar v)
  | list {value : List (Nested Entry)} {shown : Text} {dumped : Option Text} {element : Nat}
      (array : elementOidOf oid = some element)
      (natural : ∀ v, some v ∈ (Nested.list value).leaves → Natural element v)
      (survives : ∀ v, some v ∈ (Nested.list value).leaves →
        Arrays.Survives t (Scalars.encodeValue py element v))
      (full : value = [] ∨ (Nested.list value).Full) : Fits oid (.list value shown dumped)

end Codecs

section Agreement

variable {py : Python} {t : TextTables} {oid element : Nat} {cell : Cell}

theorem mem_arrayOids (array : elementOidOf oid = some element) :
    (element, oid) ∈ Arrays.arrayOids := by
  obtain ⟨entry, found, rfl⟩ := Option.map_eq_some_iff.mp array
  have same := List.find?_some found
  obtain rfl : entry.2 = oid := by simpa using same
  exact List.mem_of_find?_eq_some found

theorem element_lt (array : elementOidOf oid = some element) : element < 2 ^ 32 := by
  have small : ∀ entry ∈ Arrays.arrayOids, entry.1 < 2 ^ 32 := by decide
  exact small _ (mem_arrayOids array)

/-- The types of `_BINARY_ENCODERS` and of `_BINARY_DECODERS`. -/
def CODEC_OIDS : List Nat :=
  [BOOL, INT2, INT4, OID, INT8, FLOAT4, FLOAT8, BYTEA, TEXT, VARCHAR, BPCHAR, NAME, DATE, TIMESTAMP,
    TIMESTAMPTZ, INTERVAL, NUMERIC, TIME, UUID, JSON, JSONB]

theorem encoders_listed (py : Python) : (BINARY_ENCODERS py).map Prod.fst = CODEC_OIDS := rfl

theorem decoders_listed (py : Python) : (BINARY_DECODERS py).map Prod.fst = CODEC_OIDS := rfl

theorem lookup_none {α : Type} {codecs : List (Nat × α)} (keys : codecs.map Prod.fst = CODEC_OIDS)
    (array : elementOidOf oid = some element) : codecs.lookup oid = none := by
  have apart : ∀ entry ∈ Arrays.arrayOids, entry.2 ∉ CODEC_OIDS := by decide
  have other := apart _ (mem_arrayOids array)
  rw [← keys] at other
  rw [List.lookup_eq_none_iff]
  intro entry inside
  refine bne_iff_ne.mpr ?_
  rintro rfl
  exact other (List.mem_map_of_mem inside)

/-- A type that a kind is known of is no array. -/
theorem no_array {v : Scalar} (natural : Natural oid v) : elementOidOf oid = none := by
  have apart : ∀ entry ∈ KINDS, elementOidOf entry.1 = none := by decide
  obtain ⟨kind, found, -⟩ := natural
  exact apart _ (mem_kinds found)

theorem toOption_eq_some {α ε : Type} {r : Except ε α} {a : α} :
    r.toOption = some a ↔ r = .ok a := by
  cases r <;> simp [Except.toOption]

/-- What is sent as text is read back. -/
theorem decodeTextParam_encoded {text : Text} (fits : Fits py t oid cell)
    (encoded : encodeValue py t oid cell = some text) :
    ∃ param, seen py oid cell = some param ∧ decodeTextParam t oid text = some param := by
  cases fits with
  | scalar natural =>
    refine ⟨.text text, congrArg (Option.map Param.text) encoded, ?_⟩
    rw [decodeTextParam, no_array natural]
  | list array natural survives full =>
    rw [encodeValue, array] at encoded
    have read := parseArrayLiteral_formatted survives (toOption_eq_some.mp encoded)
    refine ⟨_, by rw [seen, array, Option.map_some], ?_⟩
    rw [decodeTextParam, array, read]
    rfl

/-- And what is sent in binary. -/
theorem decodeBinaryParam_encoded {data : Bytes} (depth : Nat) (fits : Fits py t oid cell)
    (encoded : encodeValueBinary py oid cell = some data) :
    ∃ param, seen py oid cell = some param ∧
      decodeBinaryParam py (depth + 1) oid data = some param := by
  rw [encodeValueBinary.eq_def] at encoded
  cases fits with
  | @scalar v natural =>
    cases known : (BINARY_ENCODERS py).lookup oid with
    | none =>
      rw [known] at encoded
      cases encoded
    | some encoder =>
      rw [known] at encoded
      have written : Scalars.encodeValueBinary py oid v = some data :=
        (encoder_of known v).trans encoded
      obtain ⟨text, shown⟩ := Option.isSome_iff_exists.mp (encodeValue_isSome natural written)
      have read := (decoded_encoded natural written).trans shown
      obtain ⟨decoder, decodes, decoded⟩ := Option.bind_eq_some_iff.mp read
      refine ⟨.text text, congrArg (Option.map Param.text) shown, ?_⟩
      rw [decodeBinaryParam, decodes]
      exact congrArg (Option.map Param.text) decoded
  | list array natural survives full =>
    simp only [lookup_none (encoders_listed py) array, array, Option.bind_some] at encoded
    have read := decodeArrayBinary_encoded depth (element_lt array) natural full
      (toOption_eq_some.mp encoded)
    refine ⟨_, by rw [seen, array, Option.map_some], ?_⟩
    simp only [decodeBinaryParam, lookup_none (decoders_listed py) array, array, read]
    rfl

end Agreement

section Rows

variable {py : Python} {t : TextTables} {depth : Nat} {raised : Raised}
variable {copyText : Cell → Except Failure Text} {columns : List ResultColumn} {codes : List Int}
variable {row : Row Cell} {values : List (Option Bytes)}

theorem orRaised_ok {α : Type} {a : α} {r : Option α} : orRaised raised r = .ok a ↔ r = some a := by
  cases r <;> simp [orRaised]

/-- What `encode_row` writes in a column is read as a parameter of its type. -/
theorem decodeParam_encoded (rt : Runtime) {cell : Cell} {column : ResultColumn} {bytes : Bytes}
    {code : Int} {index : Nat} (found : columns[index]? = some column)
    (fits : Fits py t column.oid cell)
    (encoded : (if code = 0 then
        (types py t (depth + 1) raised copyText).encoders.encodeValue column.oid cell
      else (types py t (depth + 1) raised copyText).encoders.encodeValueBinary column.oid cell) =
        .ok bytes) :
    decodeParam rt (types py t (depth + 1) raised copyText) (some bytes) code
      (columns.map fun column => some (column.oid : Int)) index =
        .ok (seen py column.oid cell) := by
  have known : (columns.map fun column => some (column.oid : Int))[index]?.join =
      some (column.oid : Int) := by
    rw [List.getElem?_map, found]
    rfl
  have number : (column.oid : Int).toNat = column.oid := Int.toNat_natCast _
  rw [decodeParam, known]
  split at encoded
  case isTrue text =>
    obtain ⟨shown, written, rfl⟩ := Option.map_eq_some_iff.mp (orRaised_ok.mp encoded)
    obtain ⟨param, same, read⟩ := decodeTextParam_encoded fits written
    have whole : Utf8.whole (Utf8.encode shown) = some shown := Utf8.whole_eq_some_iff.mpr rfl
    rw [if_pos text, whole, same]
    simp only [types, number, read]
    rfl
  case isFalse binary =>
    obtain ⟨param, same, read⟩ := decodeBinaryParam_encoded depth fits (orRaised_ok.mp encoded)
    rw [if_neg binary, same]
    simp only [types, number, read]
    rfl

/-- The codes are the three shapes a client may give: none, one, or one for each value. -/
def Shaped (codes : List Int) (count : Nat) : Prop := codes.length ≤ 1 ∨ count ≤ codes.length

theorem formatCodeFor_ok {count index : Nat} (shaped : Shaped codes count)
    (inside : index < count) : ∃ code, formatCodeFor codes index = .ok code := by
  match codes, shaped with
  | [], _ => exact ⟨_, rfl⟩
  | [code], _ => exact ⟨_, rfl⟩
  | first :: second :: codes, .inr enough =>
    have there : index < (first :: second :: codes).length := by omega
    refine ⟨(first :: second :: codes)[index], ?_⟩
    simp only [formatCodeFor, List.getElem?_eq_getElem there]

/-- What a session should see of a row, from a column on. -/
def seenFrom (py : Python) (columns : List ResultColumn) (index : Nat) :
    Row Cell → List (Option Param)
  | [] => []
  | cell :: row =>
    (cell.bind fun cell => columns[index]?.bind fun column => seen py column.oid cell) ::
      seenFrom py columns (index + 1) row

/-- A value that is encoded has a code and a column. -/
theorem encodeFrom_some {Cell : Type} {enc : Encoders Cell Bytes} {value : Cell} {row : Row Cell}
    {index : Nat} (encoded : encodeFrom enc columns codes index (some value :: row) = .ok values) :
    ∃ code column bytes later, formatCodeFor codes index = .ok code ∧
      columns[index]? = some column ∧
      (if code = 0 then enc.encodeValue column.oid value
        else enc.encodeValueBinary column.oid value) = .ok bytes ∧
      encodeFrom enc columns codes (index + 1) row = .ok later ∧ values = some bytes :: later := by
  obtain ⟨code, coded, encoded⟩ := bind_ok.mp encoded
  cases found : columns[index]? with
  | none =>
    rw [found] at encoded
    cases encoded
  | some column =>
    rw [found] at encoded
    by_cases text : code = 0
    · simp only [if_pos text] at encoded
      obtain ⟨bytes, first, encoded⟩ := bind_ok.mp encoded
      obtain ⟨later, behind, same⟩ := bind_ok.mp encoded
      cases same
      exact ⟨code, column, bytes, later, coded, rfl, (if_pos text).trans first, behind, rfl⟩
    · simp only [if_neg text] at encoded
      obtain ⟨bytes, first, encoded⟩ := bind_ok.mp encoded
      obtain ⟨later, behind, same⟩ := bind_ok.mp encoded
      cases same
      exact ⟨code, column, bytes, later, coded, rfl, (if_neg text).trans first, behind, rfl⟩

theorem decodeParams_encoded (rt : Runtime) {index count : Nat} (shaped : Shaped codes count)
    (short : index + row.length ≤ count)
    (fits : ∀ i cell column, row[i]? = some (some cell) → columns[index + i]? = some column →
      Fits py t column.oid cell)
    (encoded : encodeFrom (types py t (depth + 1) raised copyText).encoders columns codes index
      row = .ok values) :
    decodeParams rt (types py t (depth + 1) raised copyText) codes
      (columns.map fun column => some (column.oid : Int)) index values =
        .ok (seenFrom py columns index row) := by
  induction row generalizing index values with
  | nil =>
    cases encoded
    rfl
  | cons cell row ih =>
    rw [List.length_cons] at short
    obtain ⟨code, coded⟩ := formatCodeFor_ok shaped (show index < count by omega)
    have later {values : List (Option Bytes)}
        (encoded : encodeFrom (types py t (depth + 1) raised copyText).encoders columns codes
          (index + 1) row = .ok values) :=
      ih (by omega) (fun i cell column inside found => fits (i + 1) cell column inside (by
        rw [show index + (i + 1) = index + 1 + i by omega]
        exact found)) encoded
    cases cell with
    | none =>
      obtain ⟨values, behind, same⟩ := bind_ok.mp encoded
      cases same
      rw [decodeParams, coded, later behind]
      rfl
    | some cell =>
      obtain ⟨code, column, bytes, values, coded, found, first, behind, rfl⟩ :=
        encodeFrom_some encoded
      have read := decodeParam_encoded rt found (fits 0 cell column rfl found) first
      rw [decodeParams, coded, later behind]
      simp only [Dispatch.uncaught, Except.mapError, bind, Except.bind, read]
      rw [seenFrom, found]
      rfl

/-- A date in binary, an array of dates as a literal, and a NULL. -/
def dated : Row Cell := [some (.scalar (.date leapDay)), some (.list someDates [] none), none]

def datedColumns : List ResultColumn := [⟨['d'], DATE⟩, ⟨['a'], 1182⟩, ⟨['n'], DATE⟩]

def datedValues : List (Option Bytes) :=
  [some [0, 0, 0x22, 0x79], some (Utf8.encode "\x7b2024-02-29,NULL\x7d".toList), none]

theorem dated_fits (i : Nat) (cell : Cell) (column : ResultColumn)
    (inside : dated[i]? = some (some cell)) (found : datedColumns[i]? = some column) :
    Fits noConversions Endpoint.asciiTables column.oid cell := by
  rcases i with _ | _ | _ | i
  · cases inside
    cases found
    exact .scalar ⟨.date, rfl, .date _⟩
  · cases inside
    cases found
    have dates (v : Scalar) (inside : some v ∈ (Nested.list someDates).leaves) :
        v = .date leapDay := by
      simpa [someDates, Nested.leaves, Nested.leavesAll] using inside
    refine .list (show elementOidOf 1182 = some DATE from rfl) (fun v inside => ?_)
      (fun v inside => ?_) (.inr ?_)
    · rw [dates v inside]
      exact ⟨.date, rfl, .date _⟩
    · rw [dates v inside]
      exact survives_typed (show Kind.date ∉ [.float, .text, .json] by decide) (.date _)
    · simp [someDates, Nested.Full, Nested.Full.FullAll]
  · cases inside
  · cases inside

end Rows

end PgMimic.RowFormats
