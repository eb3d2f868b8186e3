import PgMimic.FieldMessages
import PgMimic.Lib.Codec
import PgMimic.Scram

/-!
# The messages of the backend

Each builder lays out one kind of message, and raises where a number does not fit its field.
A client takes frames off the bytes as they arrive, and each payload apart by its tag. It
comes to the messages that were sent, however the bytes were cut, unless a string among them
has a NUL.
-/

namespace PgMimic.Messages

open PgMimic.Copy (Text)
open PgMimic.FieldMessages (FieldCode Fields message decodeFields fieldsPayload fieldsMessage
  makeErrorResponse makeNoticeResponse ERROR_RESPONSE NOTICE_RESPONSE)
open PgMimic.Scram (AUTHENTICATION makeAuthenticationSasl makeAuthenticationSaslContinue
  makeAuthenticationSaslFinal)
open PgMimic.Stream (Tag Message)
open PgMimic.Wire (cstring NulFree)

abbrev Bytes := List UInt8

def BACKEND_KEY_DATA : Tag := 0x4B
def BIND_COMPLETE : Tag := 0x32
def CLOSE_COMPLETE : Tag := 0x33
def COMMAND_COMPLETE : Tag := 0x43
def COPY_IN_RESPONSE : Tag := 0x47
def COPY_OUT_RESPONSE : Tag := 0x48
def COPY_DATA : Tag := 0x64
def COPY_DONE : Tag := 0x63
def DATA_ROW : Tag := 0x44
def EMPTY_QUERY_RESPONSE : Tag := 0x49
def NEGOTIATE_PROTOCOL_VERSION : Tag := 0x76
def NO_DATA : Tag := 0x6E
def NOTIFICATION_RESPONSE : Tag := 0x41
def PARAMETER_DESCRIPTION : Tag := 0x74
def PARAMETER_STATUS : Tag := 0x53
def PARSE_COMPLETE : Tag := 0x31
def PORTAL_SUSPENDED : Tag := 0x73
def READY_FOR_QUERY : Tag := 0x5A
def ROW_DESCRIPTION : Tag := 0x54

/-! ## The builders -/

/-- `pack_int16`: a number that is no Int16 is a `struct.error`. -/
def packInt16 (value : Int) : Option Bytes :=
  if -2 ^ 15 ≤ value ∧ value < 2 ^ 15 then some (Wire.packInt16 value) else none

/-- `pack_int32`. -/
def packInt32 (value : Int) : Option Bytes :=
  if -2 ^ 31 ≤ value ∧ value < 2 ^ 31 then some (Wire.packInt32 value) else none

def packCstring (text : Text) : Option Bytes := some (cstring text)

def makeAuthenticationOk : Option Bytes := message ⟨AUTHENTICATION, Wire.packInt32 0⟩

def makeAuthenticationCleartextPassword : Option Bytes :=
  message ⟨AUTHENTICATION, Wire.packInt32 3⟩

def makeAuthenticationMd5Password (salt : Bytes) : Option Bytes :=
  message ⟨AUTHENTICATION, Wire.packInt32 5 ++ salt⟩

def makeParameterStatus (name value : Text) : Option Bytes :=
  message ⟨PARAMETER_STATUS, cstring name ++ cstring value⟩

def makeBackendKeyData (pid secret : Int) : Option Bytes := do
  let payload ← Codec.packBoth packInt32 packInt32 (pid, secret)
  message ⟨BACKEND_KEY_DATA, payload⟩

def statusByte : TxStatus → UInt8
  | .I => 0x49
  | .T => 0x54
  | .E => 0x45

def makeReadyForQuery (status : TxStatus) : Option Bytes :=
  message ⟨READY_FOR_QUERY, [statusByte status]⟩

structure FieldSpec where
  name : Text
  oid : Int
  tableOid : Int := 0
  columnAttnum : Int := 0
  typeSize : Int := -1
  typeModifier : Int := -1
  formatCode : Int := 0
deriving DecidableEq

/-- The fields in the order of the message. -/
abbrev Packed := Text × Int × Int × Int × Int × Int × Int

def FieldSpec.packed (f : FieldSpec) : Packed :=
  (f.name, f.tableOid, f.columnAttnum, f.oid, f.typeSize, f.typeModifier, f.formatCode)

def FieldSpec.unpacked (x : Packed) : FieldSpec where
  name := x.1
  oid := x.2.2.2.1
  tableOid := x.2.1
  columnAttnum := x.2.2.1
  typeSize := x.2.2.2.2.1
  typeModifier := x.2.2.2.2.2.1
  formatCode := x.2.2.2.2.2.2

def packFieldSpec (f : FieldSpec) : Option Bytes :=
  Codec.packBoth packCstring (Codec.packBoth packInt32 (Codec.packBoth packInt16
    (Codec.packBoth packInt32 (Codec.packBoth packInt16 (Codec.packBoth packInt32 packInt16)))))
    f.packed

def packCount16 (count : Nat) : Option Bytes := packInt16 count

def packCount32 (count : Nat) : Option Bytes := packInt32 count

def makeRowDescription (columns : List FieldSpec) : Option Bytes := do
  let payload ← Codec.packCounted packCount16 packFieldSpec columns
  message ⟨ROW_DESCRIPTION, payload⟩

/-- A NULL has the length -1. -/
def packValue : Option Bytes → Option Bytes
  | none => packInt32 (-1)
  | some value => (packInt32 value.length).map (· ++ value)

def makeDataRow (values : List (Option Bytes)) : Option Bytes := do
  let payload ← Codec.packCounted packCount16 packValue values
  message ⟨DATA_ROW, payload⟩

def makeCommandComplete (tag : Text) : Option Bytes := message ⟨COMMAND_COMPLETE, cstring tag⟩

def makeEmptyQueryResponse : Option Bytes := message ⟨EMPTY_QUERY_RESPONSE, []⟩

def makeNotificationResponse (pid : Int) (channel payload : Text) : Option Bytes := do
  let payload ← Codec.packBoth packInt32 (Codec.packBoth packCstring packCstring)
    (pid, channel, payload)
  message ⟨NOTIFICATION_RESPONSE, payload⟩

def makeNegotiateProtocolVersion (version : Int) (unrecognizedOptions : List Text) :
    Option Bytes := do
  let payload ← Codec.packBoth packInt32 (Codec.packCounted packCount32 packCstring)
    (version, unrecognizedOptions)
  message ⟨NEGOTIATE_PROTOCOL_VERSION, payload⟩

def makeParseComplete : Option Bytes := message ⟨PARSE_COMPLETE, []⟩

def makeBindComplete : Option Bytes := message ⟨BIND_COMPLETE, []⟩

def makeCloseComplete : Option Bytes := message ⟨CLOSE_COMPLETE, []⟩

def makeNoData : Option Bytes := message ⟨NO_DATA, []⟩

def makePortalSuspended : Option Bytes := message ⟨PORTAL_SUSPENDED, []⟩

def makeParameterDescription (oids : List Int) : Option Bytes := do
  let payload ← Codec.packCounted packCount16 packInt32 oids
  message ⟨PARAMETER_DESCRIPTION, payload⟩

/-- `_copy_response`: the overall format and those of the columns are all text. -/
def copyResponse (tag : Tag) (columnCount : Nat) : Option Bytes := do
  let count ← packInt16 columnCount
  message ⟨tag, 0 :: count ++ (List.replicate columnCount (Wire.packInt16 0)).flatten⟩

def makeCopyInResponse (columnCount : Nat) : Option Bytes :=
  copyResponse COPY_IN_RESPONSE columnCount

def makeCopyOutResponse (columnCount : Nat) : Option Bytes :=
  copyResponse COPY_OUT_RESPONSE columnCount

def makeCopyData (data : Bytes) : Option Bytes := message ⟨COPY_DATA, data⟩

def makeCopyDone : Option Bytes := message ⟨COPY_DONE, []⟩

/-- One call of a builder. -/
inductive Backend where
  | authenticationOk
  | authenticationCleartextPassword
  | authenticationMd5Password (salt : Bytes)
  | authenticationSasl (mechanisms : List Text)
  | authenticationSaslContinue (data : Bytes)
  | authenticationSaslFinal (data : Bytes)
  | parameterStatus (name value : Text)
  | backendKeyData (pid secret : Int)
  | readyForQuery (status : TxStatus)
  | rowDescription (columns : List FieldSpec)
  | dataRow (values : List (Option Bytes))
  | commandComplete (tag : Text)
  | emptyQueryResponse
  | errorResponse (fields : Fields)
  | noticeResponse (fields : Fields)
  | notificationResponse (pid : Int) (channel payload : Text)
  | negotiateProtocolVersion (version : Int) (unrecognizedOptions : List Text)
  | parseComplete
  | bindComplete
  | closeComplete
  | noData
  | portalSuspended
  | parameterDescription (oids : List Int)
  | copyInResponse (columnCount : Nat)
  | copyOutResponse (columnCount : Nat)
  | copyData (data : Bytes)
  | copyDone
deriving DecidableEq

def Backend.make : Backend → Option Bytes
  | .authenticationOk => makeAuthenticationOk
  | .authenticationCleartextPassword => makeAuthenticationCleartextPassword
  | .authenticationMd5Password salt => makeAuthenticationMd5Password salt
  | .authenticationSasl mechanisms => message (makeAuthenticationSasl mechanisms)
  | .authenticationSaslContinue data => message (makeAuthenticationSaslContinue data)
  | .authenticationSaslFinal data => message (makeAuthenticationSaslFinal data)
  | .parameterStatus name value => makeParameterStatus name value
  | .backendKeyData pid secret => makeBackendKeyData pid secret
  | .readyForQuery status => makeReadyForQuery status
  | .rowDescription columns => makeRowDescription columns
  | .dataRow values => makeDataRow values
  | .commandComplete tag => makeCommandComplete tag
  | .emptyQueryResponse => makeEmptyQueryResponse
  | .errorResponse fields => makeErrorResponse fields
  | .noticeResponse fields => makeNoticeResponse fields
  | .notificationResponse pid channel payload => makeNotificationResponse pid channel payload
  | .negotiateProtocolVersion version options => makeNegotiateProtocolVersion version options
  | .parseComplete => makeParseComplete
  | .bindComplete => makeBindComplete
  | .closeComplete => makeCloseComplete
  | .noData => makeNoData
  | .portalSuspended => makePortalSuspended
  | .parameterDescription oids => makeParameterDescription oids
  | .copyInResponse columnCount => makeCopyInResponse columnCount
  | .copyOutResponse columnCount => makeCopyOutResponse columnCount
  | .copyData data => makeCopyData data
  | .copyDone => makeCopyDone

/-- What a client may be sent at any time. -/
def Backend.isAsync : Backend → Bool
  | .noticeResponse _ | .notificationResponse _ _ _ | .parameterStatus _ _ => true
  | _ => false

/-! ## The client -/

def takeInt16 : Bytes → Option (Int × Bytes)
  | a :: b :: rest => some (Wire.int16 a b, rest)
  | _ => none

def takeInt32 : Bytes → Option (Int × Bytes)
  | a :: b :: c :: d :: rest => some (Stream.unpackInt32 a b c d, rest)
  | _ => none

/-- A count, which is not negative. -/
def takeCount (take : Bytes → Option (Int × Bytes)) (bytes : Bytes) : Option (Nat × Bytes) :=
  match take bytes with
  | none => none
  | some (count, rest) => if 0 ≤ count then some (count.toNat, rest) else none

def takeCstring (bytes : Bytes) : Option (Text × Bytes) :=
  match bytes.dropWhile (· ≠ 0) with
  | [] => none
  | _ :: rest => (Utf8.whole (bytes.takeWhile (· ≠ 0))).map fun text => (text, rest)

def takeValue (bytes : Bytes) : Option (Option Bytes × Bytes) :=
  match takeInt32 bytes with
  | none => none
  | some (length, rest) =>
    if length = -1 then some (none, rest)
    else if 0 ≤ length ∧ length ≤ rest.length then
      some (some (rest.take length.toNat), rest.drop length.toNat)
    else none

/-- Strings up to the empty one. -/
def takeStrings : Nat → Bytes → Option (List Text × Bytes)
  | 0, _ => none
  | rounds + 1, bytes =>
    if bytes.head? = some 0 then some ([], bytes.tail)
    else do
      let (text, bytes) ← takeCstring bytes
      let (texts, bytes) ← takeStrings rounds bytes
      some (text :: texts, bytes)

def takeFieldSpec : Bytes → Option (FieldSpec × Bytes) :=
  Codec.readAs FieldSpec.unpacked
    (Codec.readBoth takeCstring (Codec.readBoth takeInt32 (Codec.readBoth takeInt16
      (Codec.readBoth takeInt32 (Codec.readBoth takeInt16 (Codec.readBoth takeInt32 takeInt16))))))

def statusOf (byte : UInt8) : Option TxStatus :=
  if byte = 0x49 then some .I else if byte = 0x54 then some .T
  else if byte = 0x45 then some .E else none

/-- Field codes are ASCII, and not the NUL that ends the fields. -/
def asCodes : List (UInt8 × Text) → Option (List (FieldCode × Text))
  | [] => some []
  | (code, text) :: fields =>
    if ascii : 0 < code ∧ code < 128 then
      (asCodes fields).map fun fields => (⟨code, ascii⟩, text) :: fields
    else none

def asFields (pairs : List (UInt8 × Text)) : Option Fields :=
  (asCodes pairs).bind fun entries =>
    if distinct : (entries.map Prod.fst).Nodup then some ⟨entries, distinct⟩ else none

def decodeAuthentication (payload : Bytes) : Option Backend :=
  match takeInt32 payload with
  | none => none
  | some (code, data) =>
    if code = 0 then if data = [] then some .authenticationOk else none
    else if code = 3 then if data = [] then some .authenticationCleartextPassword else none
    else if code = 5 then some (.authenticationMd5Password data)
    else if code = 10 then
      (Codec.whole (takeStrings data.length) data).map .authenticationSasl
    else if code = 11 then some (.authenticationSaslContinue data)
    else if code = 12 then some (.authenticationSaslFinal data)
    else none

def decodeStatus : Bytes → Option Backend
  | [byte] => (statusOf byte).map .readyForQuery
  | _ => none

def decodeCopyResponse : Bytes → Option Nat
  | 0 :: rest => (Codec.whole (Codec.readCounted (takeCount takeInt16) takeInt16) rest).bind
      fun codes => if codes.all (· = 0) then some codes.length else none
  | _ => none

def decodeEmpty (m : Backend) (payload : Bytes) : Option Backend :=
  if payload = [] then some m else none

def decodeFieldsMessage (f : Fields → Backend) (payload : Bytes) :
    Option Backend :=
  ((decodeFields payload).bind asFields).map f

/-- What a codec reads. -/
def decodeWhole {α : Type} (read : Bytes → Option (α × Bytes)) (f : α → Backend)
    (payload : Bytes) : Option Backend :=
  (Codec.whole read payload).map f

def decodeCopy (f : Nat → Backend) (payload : Bytes) : Option Backend :=
  (decodeCopyResponse payload).map f

def decodeData (payload : Bytes) : Option Backend := some (.copyData payload)

def decoders : List (Tag × (Bytes → Option Backend)) :=
  [(AUTHENTICATION, decodeAuthentication),
    (PARAMETER_STATUS, decodeWhole (Codec.readBoth takeCstring takeCstring)
      fun x => .parameterStatus x.1 x.2),
    (BACKEND_KEY_DATA, decodeWhole (Codec.readBoth takeInt32 takeInt32)
      fun x => .backendKeyData x.1 x.2),
    (READY_FOR_QUERY, decodeStatus),
    (ROW_DESCRIPTION, decodeWhole (Codec.readCounted (takeCount takeInt16) takeFieldSpec)
      .rowDescription),
    (DATA_ROW, decodeWhole (Codec.readCounted (takeCount takeInt16) takeValue) .dataRow),
    (COMMAND_COMPLETE, decodeWhole takeCstring .commandComplete),
    (EMPTY_QUERY_RESPONSE, decodeEmpty .emptyQueryResponse),
    (ERROR_RESPONSE, decodeFieldsMessage .errorResponse),
    (NOTICE_RESPONSE, decodeFieldsMessage .noticeResponse),
    (NOTIFICATION_RESPONSE, decodeWhole
      (Codec.readBoth takeInt32 (Codec.readBoth takeCstring takeCstring))
      fun x => .notificationResponse x.1 x.2.1 x.2.2),
    (NEGOTIATE_PROTOCOL_VERSION, decodeWhole
      (Codec.readBoth takeInt32 (Codec.readCounted (takeCount takeInt32) takeCstring))
      fun x => .negotiateProtocolVersion x.1 x.2),
    (PARSE_COMPLETE, decodeEmpty .parseComplete),
    (BIND_COMPLETE, decodeEmpty .bindComplete),
    (CLOSE_COMPLETE, decodeEmpty .closeComplete),
    (NO_DATA, decodeEmpty .noData),
    (PORTAL_SUSPENDED, decodeEmpty .portalSuspended),
    (PARAMETER_DESCRIPTION, decodeWhole (Codec.readCounted (takeCount takeInt16) takeInt32)
      .parameterDescription),
    (COPY_IN_RESPONSE, decodeCopy .copyInResponse),
    (COPY_OUT_RESPONSE, decodeCopy .copyOutResponse),
    (COPY_DATA, decodeData),
    (COPY_DONE, decodeEmpty .copyDone)]

/-- A message by its tag. -/
def decode (m : Message) : Option Backend :=
  (decoders.lookup m.tag).bind fun decoder => decoder m.payload

/-- A frame off the front of what has arrived. -/
def takeFrame : Bytes → Option (Message × Bytes)
  | tag :: a :: b :: c :: d :: rest =>
    let length := Stream.unpackInt32 a b c d
    if 4 ≤ length ∧ length - 4 ≤ rest.length then
      some (⟨tag, rest.take (length - 4).toNat⟩, rest.drop (length - 4).toNat)
    else none
  | _ => none

theorem takeFrame_frame {m : Message} (short : m.payload.length + 4 < 2 ^ 31) (rest : Bytes) :
    takeFrame (m.frame ++ rest) = some (m, rest) := by
  have length := Stream.unpackInt32_packInt32 short
  have inside : (4 : Int) ≤ ((m.payload.length + 4 : Nat) : Int) ∧
      ((m.payload.length + 4 : Nat) : Int) - 4 ≤ (m.payload ++ rest).length := by
    rw [List.length_append]
    omega
  have size : (((m.payload.length + 4 : Nat) : Int) - 4).toNat = m.payload.length := by omega
  simp only [Message.frame, Message.header, Stream.packInt32, List.cons_append, List.nil_append,
    takeFrame, length, if_pos inside, size, List.take_left, List.drop_left]

theorem takeFrame_eq_some {buffer rest : Bytes} {m : Message}
    (taken : takeFrame buffer = some (m, rest)) :
    m.payload.length + 4 < 2 ^ 31 ∧ buffer = m.frame ++ rest := by
  match buffer, taken with
  | tag :: a :: b :: c :: d :: later, taken =>
    simp only [takeFrame] at taken
    obtain ⟨⟨low, inside⟩, same⟩ := Option.ite_none_right_eq_some.mp taken
    obtain ⟨rfl, rfl⟩ := Prod.mk.inj (Option.some.inj same)
    have range := Wire.unpackInt32_range a b c d
    have packed := Wire.packInt32_unpackInt32 a b c d
    have size : (later.take (Stream.unpackInt32 a b c d - 4).toNat).length + 4 =
        (Stream.unpackInt32 a b c d % 2 ^ 32).toNat := by
      rw [List.length_take_of_le (by omega)]
      omega
    have short : (later.take (Stream.unpackInt32 a b c d - 4).toNat).length + 4 < 2 ^ 31 := by omega
    refine ⟨short, ?_⟩
    rw [Message.frame, Message.header, size, ← Wire.packInt32, packed, List.append_assoc,
      List.take_append_drop]
    rfl

/-- The client's framing. -/
def frames : Splitter UInt8 Message where
  next := takeFrame
  shorter := by
    intro buffer m rest taken
    rw [(takeFrame_eq_some taken).2, List.length_append, Stream.frame_length]
    omega
  stable := by
    intro buffer m rest more taken
    obtain ⟨short, rfl⟩ := takeFrame_eq_some taken
    rw [List.append_assoc, takeFrame_frame short]

/-- Every message is kept, and none is the last. -/
def keep : Splitter.Consumer Unit Message Message where
  accept := fun _ m => ((), [m])
  stopped := fun _ => false

/-- The messages that have arrived in so many pieces, and the bytes of one that has not. -/
def arrived (pieces : List Bytes) : List Message × Bytes :=
  let (ms, _, left) := frames.feed keep () [] pieces
  (ms, left)

def decodeAll : List Message → Option (List Backend)
  | [] => some []
  | m :: ms => do
    let b ← decode m
    let bs ← decodeAll ms
    some (b :: bs)

/-- What the server writes. -/
def makeAll : List Backend → Option Bytes
  | [] => some []
  | b :: bs => do
    let bytes ← b.make
    let later ← makeAll bs
    some (bytes ++ later)

/-- Every string of the message ends at the NUL behind it. -/
def Backend.Sound : Backend → Prop
  | .authenticationSasl mechanisms => ∀ m ∈ mechanisms, m ≠ [] ∧ NulFree m
  | .parameterStatus name value => NulFree name ∧ NulFree value
  | .rowDescription columns => ∀ f ∈ columns, NulFree f.name
  | .commandComplete tag => NulFree tag
  | .errorResponse fields | .noticeResponse fields => ∀ f ∈ fields.entries, NulFree f.2
  | .notificationResponse _ channel payload => NulFree channel ∧ NulFree payload
  | .negotiateProtocolVersion _ options => ∀ o ∈ options, NulFree o
  | _ => True

/-! ## One part of a payload -/

theorem reads_int16 : Codec.Reads packInt16 takeInt16 fun _ => True where
  back := by
    intro value bytes packed _ rest
    obtain ⟨fits, same⟩ := Option.ite_none_right_eq_some.mp packed
    obtain rfl := Option.some.inj same
    obtain ⟨a, b, layout, reads⟩ := Wire.int16_packInt16 value
    have value_eq : Wire.int16 a b = value := by
      rw [reads]
      split_ifs <;> omega
    rw [layout, ← value_eq]
    rfl
  good := fun _ => trivial

theorem reads_int32 : Codec.Reads packInt32 takeInt32 fun _ => True where
  back := by
    intro value bytes packed _ rest
    obtain ⟨fits, same⟩ := Option.ite_none_right_eq_some.mp packed
    obtain rfl := Option.some.inj same
    obtain ⟨a, b, c, d, layout, reads⟩ := Wire.unpackInt32_packInt32 value
    have value_eq : Stream.unpackInt32 a b c d = value := by
      rw [reads]
      split_ifs <;> omega
    rw [layout, ← value_eq]
    rfl
  good := fun _ => trivial

theorem reads_count {pack : Int → Option Bytes} {take : Bytes → Option (Int × Bytes)}
    (h : Codec.Reads pack take fun _ => True) :
    Codec.Reads (fun count : Nat => pack count) (takeCount take) fun _ => True where
  back := by
    intro count bytes packed _ rest
    rw [takeCount, h.back packed trivial rest]
    simp
  good := fun _ => trivial

theorem reads_count16 : Codec.Reads packCount16 (takeCount takeInt16) fun _ => True :=
  reads_count reads_int16

theorem reads_count32 : Codec.Reads packCount32 (takeCount takeInt32) fun _ => True :=
  reads_count reads_int32

/-- A text without a NUL is what stands in front of the first NUL. -/
theorem nonzero_of_nulFree {text : Text} (free : NulFree text) :
    ∀ byte ∈ Utf8.encode text, decide (byte ≠ 0) = true := by
  intro byte member
  apply decide_eq_true
  rintro rfl
  obtain ⟨c, inside, nul⟩ := Utf8.zero_mem_encode_iff.mp member
  exact free c inside nul

theorem reads_cstring : Codec.Reads packCstring takeCstring NulFree where
  back := by
    intro text bytes packed free rest
    obtain rfl := Option.some.inj packed
    have split : cstring text ++ rest = Utf8.encode text ++ 0 :: rest := by
      rw [cstring, List.append_assoc, List.singleton_append]
    have nonzero := nonzero_of_nulFree free
    have behind : (cstring text ++ rest).dropWhile (· ≠ 0) = 0 :: rest := by
      rw [split, List.dropWhile_append_of_pos nonzero]
      rfl
    have front : (cstring text ++ rest).takeWhile (· ≠ 0) = Utf8.encode text := by
      rw [split, List.takeWhile_append_of_pos nonzero]
      simp
    rw [takeCstring, behind, front, Utf8.whole_eq_some_iff.mpr rfl]
    rfl
  good := by
    intro bytes text rest reads
    simp only [takeCstring] at reads
    split at reads
    · cases reads
    · obtain ⟨whole, read, same⟩ := Option.map_eq_some_iff.mp reads
      obtain ⟨rfl, -⟩ := Prod.mk.inj same
      intro c member nul
      have zero : (0 : UInt8) ∈ Utf8.encode whole :=
        Utf8.zero_mem_encode_iff.mpr ⟨c, member, nul⟩
      rw [← Utf8.whole_eq_some_iff.mp read] at zero
      exact absurd (List.mem_takeWhile_imp zero) (by decide)

theorem reads_value : Codec.Reads packValue takeValue fun _ => True where
  back := by
    intro value bytes packed _ rest
    cases value with
    | none =>
      rw [takeValue, reads_int32.back packed trivial rest]
      exact if_pos rfl
    | some value =>
      rw [packValue] at packed
      obtain ⟨front, length, rfl⟩ := Option.map_eq_some_iff.mp packed
      rw [takeValue, List.append_assoc, reads_int32.back length trivial]
      have inside : (0 : Int) ≤ value.length ∧ (value.length : Int) ≤ (value ++ rest).length := by
        rw [List.length_append]
        omega
      simp only [if_pos inside, Int.toNat_natCast, List.take_left, List.drop_left]
      exact if_neg (by omega)
  good := fun _ => trivial

theorem reads_fieldSpec : Codec.Reads packFieldSpec takeFieldSpec fun f => NulFree f.name := by
  have parts := reads_cstring.both (reads_int32.both (reads_int16.both (reads_int32.both
    (reads_int16.both (reads_int32.both reads_int16)))))
  have fields := parts.as FieldSpec.unpacked FieldSpec.packed (fun _ => rfl) (fun _ => rfl)
  exact fields.imp fun f => ⟨fun free => ⟨free, trivial, trivial, trivial, trivial, trivial,
    trivial⟩, And.left⟩

/-! ## Strings up to the empty one -/

theorem encode_ne_nil {text : Text} (given : text ≠ []) : Utf8.encode text ≠ [] := by
  obtain ⟨c, text, rfl⟩ := List.exists_cons_of_ne_nil given
  have width := String.length_utf8EncodeChar c
  have positive := c.utf8Size_pos
  intro empty
  rw [Utf8.encode_cons, List.append_eq_nil_iff] at empty
  rw [empty.1, List.length_nil] at width
  omega

theorem head_cstring {text : Text} (given : text ≠ []) (free : NulFree text) (rest : Bytes) :
    (cstring text ++ rest).head? ≠ some 0 := by
  have nonzero := nonzero_of_nulFree free
  cases layout : Utf8.encode text with
  | nil => exact absurd layout (encode_ne_nil given)
  | cons byte bytes =>
    rw [layout] at nonzero
    have first := of_decide_eq_true (nonzero byte List.mem_cons_self)
    rw [cstring, layout]
    exact fun same => first (Option.some.inj same)

theorem head_of_takeCstring_nil {bytes rest : Bytes} (reads : takeCstring bytes = some ([], rest)) :
    bytes.head? = some 0 := by
  simp only [takeCstring] at reads
  split at reads
  · cases reads
  · rename_i behind
    obtain ⟨text, read, same⟩ := Option.map_eq_some_iff.mp reads
    obtain ⟨rfl, -⟩ := Prod.mk.inj same
    have front := Utf8.whole_eq_some_iff.mp read
    cases bytes with
    | nil => cases behind
    | cons byte bytes =>
      by_cases zero : byte = 0
      · rw [zero]
        rfl
      · have some_ : byte ∈ (byte :: bytes).takeWhile (· ≠ 0) := by simp [zero]
        rw [front] at some_
        cases some_

theorem takeStrings_cstrings {texts : List Text} (good : ∀ t ∈ texts, t ≠ [] ∧ NulFree t)
    {rounds : Nat} (enough : texts.length < rounds) (rest : Bytes) :
    takeStrings rounds (texts.flatMap cstring ++ 0 :: rest) = some (texts, rest) := by
  induction texts generalizing rounds with
  | nil =>
    obtain ⟨rounds, rfl⟩ : ∃ n, rounds = n + 1 := ⟨rounds - 1, by omega⟩
    rfl
  | cons text texts ih =>
    obtain ⟨⟨given, free⟩, others⟩ := List.forall_mem_cons.mp good
    rw [List.length_cons] at enough
    obtain ⟨rounds, rfl⟩ : ∃ n, rounds = n + 1 := ⟨rounds - 1, by omega⟩
    rw [List.flatMap_cons, List.append_assoc, takeStrings, if_neg (head_cstring given free _),
      reads_cstring.back rfl free]
    have later := ih others (Nat.lt_of_succ_lt_succ enough)
    simp only [Option.bind_eq_bind, Option.bind_some, later]

theorem good_of_takeStrings {rounds : Nat} {bytes rest : Bytes} {texts : List Text}
    (reads : takeStrings rounds bytes = some (texts, rest)) :
    ∀ t ∈ texts, t ≠ [] ∧ NulFree t := by
  induction rounds generalizing bytes texts with
  | zero => cases reads
  | succ rounds ih =>
    rw [takeStrings] at reads
    split at reads
    · obtain ⟨rfl, -⟩ := Prod.mk.inj (Option.some.inj reads)
      exact fun t member => absurd member List.not_mem_nil
    · rename_i start
      simp only [Option.bind_eq_bind, Option.bind_eq_some_iff, Option.some.injEq,
        Prod.mk.injEq] at reads
      obtain ⟨⟨text, between⟩, first, ⟨later, last⟩, others, rfl, rfl⟩ := reads
      refine List.forall_mem_cons.mpr ⟨⟨?_, reads_cstring.good first⟩, ih others⟩
      rintro rfl
      exact start (head_of_takeCstring_nil first)

/-! ## One message -/

theorem message_eq_some {m : Message} {bytes : Bytes} (made : message m = some bytes) :
    m.payload.length + 4 < 2 ^ 31 ∧ bytes = m.frame := by
  obtain ⟨short, same⟩ := Option.ite_none_right_eq_some.mp made
  exact ⟨short, (Option.some.inj same).symm⟩

theorem whole_map_iff {α : Type} {pack : α → Option Bytes} {read : Bytes → Option (α × Bytes)}
    {Good : α → Prop} (h : Codec.Reads pack read Good) {a : α} {payload : Bytes}
    (packed : pack a = some payload) {f : α → Backend} (inj : f.Injective) :
    (Codec.whole read payload).map f = some (f a) ↔ Good a := by
  constructor
  · intro decoded
    obtain ⟨a', reads, same⟩ := Option.map_eq_some_iff.mp decoded
    obtain rfl := inj same
    exact h.good_of_whole reads
  · intro good
    rw [h.whole_back packed good, Option.map_some]

theorem statusOf_statusByte (status : TxStatus) : statusOf (statusByte status) = some status := by
  cases status <;> rfl

theorem asCodes_map (entries : List (FieldCode × Text)) :
    asCodes (entries.map fun f => (f.1.val, f.2)) = some entries := by
  induction entries with
  | nil => rfl
  | cons field entries ih =>
    rw [List.map_cons, asCodes, dif_pos field.1.property, ih]
    rfl

theorem map_of_asCodes {pairs : List (UInt8 × Text)} {entries : List (FieldCode × Text)}
    (read : asCodes pairs = some entries) : pairs = entries.map fun f => (f.1.val, f.2) := by
  induction pairs generalizing entries with
  | nil =>
    obtain rfl := Option.some.inj read
    rfl
  | cons pair pairs ih =>
    obtain ⟨code, text⟩ := pair
    rw [asCodes] at read
    split at read
    · obtain ⟨later, others, rfl⟩ := Option.map_eq_some_iff.mp read
      rw [List.map_cons, ih others]
    · cases read

theorem asFields_map (fields : Fields) :
    asFields (fields.entries.map fun f => (f.1.val, f.2)) = some fields := by
  rw [asFields, asCodes_map, Option.bind_some, dif_pos fields.distinct]

theorem map_of_asFields {pairs : List (UInt8 × Text)} {fields : Fields}
    (read : asFields pairs = some fields) :
    pairs = fields.entries.map fun f => (f.1.val, f.2) := by
  obtain ⟨entries, codes, distinct⟩ := Option.bind_eq_some_iff.mp read
  split at distinct
  · obtain rfl := Option.some.inj distinct
    exact map_of_asCodes codes
  · cases distinct

theorem decodeFieldsMessage_iff (fields : Fields) {f : Fields → Backend} (inj : f.Injective) :
    decodeFieldsMessage f (fieldsPayload fields.entries) = some (f fields) ↔
      ∀ field ∈ fields.entries, NulFree field.2 := by
  rw [decodeFieldsMessage, ← FieldMessages.decodeFields_payload_iff]
  constructor
  · intro decoded
    obtain ⟨fields', read, same⟩ := Option.map_eq_some_iff.mp decoded
    obtain rfl := inj same
    obtain ⟨pairs, decodes, codes⟩ := Option.bind_eq_some_iff.mp read
    rw [decodes, map_of_asFields codes]
  · intro decodes
    rw [decodes, Option.bind_some, asFields_map]
    rfl

theorem decodeCopyResponse_layout {columnCount : Nat} {count : Bytes}
    (packed : packInt16 columnCount = some count) :
    decodeCopyResponse (0 :: count ++ (List.replicate columnCount (Wire.packInt16 0)).flatten) =
      some columnCount := by
  have zeros (n : Nat) : Codec.packAll packInt16 (List.replicate n 0) =
      some (List.replicate n (Wire.packInt16 0)).flatten := by
    induction n with
    | zero => rfl
    | succ n ih =>
      rw [List.replicate_succ, Codec.packAll, ih]
      rfl
  have layout : Codec.packCounted packCount16 packInt16 (List.replicate columnCount 0) =
      some (count ++ (List.replicate columnCount (Wire.packInt16 0)).flatten) := by
    rw [Codec.packCounted, List.length_replicate, packCount16, packed, zeros]
    rfl
  have reads := (Codec.Reads.counted reads_count16 reads_int16).whole_back layout
    fun _ _ => trivial
  rw [List.cons_append, decodeCopyResponse, reads]
  simp

theorem decode_of_lookup {m : Message} {decoder : Bytes → Option Backend}
    (by_tag : decoders.lookup m.tag = some decoder) : decode m = decoder m.payload := by
  rw [decode, by_tag, Option.bind_some]

theorem decode_authentication (payload : Bytes) :
    decode ⟨AUTHENTICATION, payload⟩ = decodeAuthentication payload :=
  decode_of_lookup rfl

theorem takeInt32_append {value : Int} (fits : -2 ^ 31 ≤ value ∧ value < 2 ^ 31) (rest : Bytes) :
    takeInt32 (Wire.packInt32 value ++ rest) = some (value, rest) :=
  reads_int32.back (if_pos fits) trivial rest

theorem takeInt32_packInt32 {value : Int} (fits : -2 ^ 31 ≤ value ∧ value < 2 ^ 31) :
    takeInt32 (Wire.packInt32 value) = some (value, []) := by
  have alone := takeInt32_append fits []
  rwa [List.append_nil] at alone

theorem decodeSasl_iff (mechanisms : List Text) :
    decode (makeAuthenticationSasl mechanisms) = some (.authenticationSasl mechanisms) ↔
      ∀ m ∈ mechanisms, m ≠ [] ∧ NulFree m := by
  have front : takeInt32 (makeAuthenticationSasl mechanisms).payload =
      some (10, mechanisms.flatMap cstring ++ [0]) := by
    have reads := reads_int32.back (a := 10) rfl trivial (mechanisms.flatMap cstring ++ [0])
    rwa [← List.append_assoc] at reads
  have layout : decode (makeAuthenticationSasl mechanisms) =
      (Codec.whole (takeStrings (mechanisms.flatMap cstring ++ [0]).length)
        (mechanisms.flatMap cstring ++ [0])).map .authenticationSasl := by
    have by_tag := decode_authentication (makeAuthenticationSasl mechanisms).payload
    rw [decodeAuthentication, front] at by_tag
    exact by_tag
  rw [layout]
  constructor
  · intro decoded
    obtain ⟨texts, reads, same⟩ := Option.map_eq_some_iff.mp decoded
    obtain rfl := Backend.authenticationSasl.inj same
    simp only [Codec.whole] at reads
    split at reads
    · rename_i taken
      obtain rfl := Option.some.inj reads
      exact good_of_takeStrings taken
    · cases reads
  · intro good
    have enough : mechanisms.length < (mechanisms.flatMap cstring ++ [0]).length := by
      have wide : mechanisms.length ≤ (mechanisms.flatMap cstring).length := by
        clear good layout front
        induction mechanisms with
        | nil => exact Nat.le_refl _
        | cons m mechanisms ih =>
          rw [List.flatMap_cons, List.length_append, List.length_cons, cstring,
            List.length_append, List.length_singleton]
          omega
      rw [List.length_append]
      exact Nat.lt_succ_of_le wide
    rw [Codec.whole, takeStrings_cstrings good enough []]
    rfl

/-- The bytes are one frame, and the client comes to the message exactly if it is sound. -/
def Decodes (b : Backend) (bytes : Bytes) : Prop :=
  ∃ m : Message, bytes = m.frame ∧ m.payload.length + 4 < 2 ^ 31 ∧ (decode m = some b ↔ b.Sound)

theorem decodes_of_message {b : Backend} {m : Message} {bytes : Bytes}
    (made : message m = some bytes) (decoded : decode m = some b ↔ b.Sound) : Decodes b bytes :=
  ⟨m, (message_eq_some made).2, (message_eq_some made).1, decoded⟩

section Kinds

variable {α : Type} {pack : α → Option Bytes} {read : Bytes → Option (α × Bytes)}
  {Good : α → Prop} {a : α} {tag : Tag} {payload bytes : Bytes} {f : α → Backend} {b : Backend}

theorem decodes_of_trivial {decoder : Bytes → Option Backend}
    (made : message ⟨tag, payload⟩ = some bytes) (by_tag : decoders.lookup tag = some decoder)
    (decoded : decoder payload = some b) (sound : b.Sound) : Decodes b bytes :=
  decodes_of_message made (iff_of_true ((decode_of_lookup by_tag).trans decoded) sound)

theorem decodes_of_empty (made : message ⟨tag, []⟩ = some bytes)
    (by_tag : decoders.lookup tag = some (decodeEmpty b)) (sound : b.Sound) : Decodes b bytes :=
  decodes_of_trivial made by_tag (if_pos rfl) sound

/-- A payload that a codec has laid out. -/
theorem decodes_of_packed (h : Codec.Reads pack read Good) (inj : f.Injective)
    (packed : pack a = some payload) (made : message ⟨tag, payload⟩ = some bytes)
    (by_tag : decoders.lookup tag = some (decodeWhole read f)) (sound : (f a).Sound ↔ Good a) :
    Decodes (f a) bytes := by
  apply decodes_of_message made
  rw [decode_of_lookup by_tag, decodeWhole, whole_map_iff h packed inj, sound]

theorem decodes_of_codec (h : Codec.Reads pack read Good) (inj : f.Injective)
    (made : (pack a >>= fun payload => message ⟨tag, payload⟩) = some bytes)
    (by_tag : decoders.lookup tag = some (decodeWhole read f)) (sound : (f a).Sound ↔ Good a) :
    Decodes (f a) bytes := by
  obtain ⟨payload, packed, framed⟩ := Option.bind_eq_some_iff.mp made
  exact decodes_of_packed h inj packed framed by_tag sound

end Kinds

theorem decodes_of_fields {fields : Fields} {tag : Tag} {bytes : Bytes} {f : Fields → Backend}
    (inj : f.Injective)
    (made : fieldsMessage tag fields = some bytes)
    (by_tag : decoders.lookup tag = some (decodeFieldsMessage f))
    (sound : (f fields).Sound ↔ ∀ field ∈ fields.entries, NulFree field.2) :
    Decodes (f fields) bytes := by
  apply decodes_of_message made
  rw [decode_of_lookup by_tag, decodeFieldsMessage_iff fields inj, sound]

theorem decodes_of_copy {columnCount : Nat} {tag : Tag} {bytes : Bytes} {f : Nat → Backend}
    (made : copyResponse tag columnCount = some bytes)
    (by_tag : decoders.lookup tag = some (decodeCopy f)) (sound : (f columnCount).Sound) :
    Decodes (f columnCount) bytes := by
  simp only [copyResponse, Option.bind_eq_bind, Option.bind_eq_some_iff] at made
  obtain ⟨count, packed, framed⟩ := made
  apply decodes_of_trivial framed by_tag _ sound
  rw [decodeCopy, decodeCopyResponse_layout packed, Option.map_some]

/-- What a builder makes is a frame that the client takes apart. -/
theorem decodes_of_make {b : Backend} {bytes : Bytes} (made : b.make = some bytes) :
    Decodes b bytes := by
  cases b with
  | authenticationOk =>
    have framed : message ⟨AUTHENTICATION, Wire.packInt32 0⟩ = some bytes := made
    refine decodes_of_trivial framed rfl ?_ trivial
    rw [decodeAuthentication, takeInt32_packInt32 (by decide)]
    rfl
  | authenticationCleartextPassword =>
    have framed : message ⟨AUTHENTICATION, Wire.packInt32 3⟩ = some bytes := made
    refine decodes_of_trivial framed rfl ?_ trivial
    rw [decodeAuthentication, takeInt32_packInt32 (by decide)]
    rfl
  | authenticationMd5Password salt =>
    refine decodes_of_trivial made rfl ?_ trivial
    rw [decodeAuthentication, takeInt32_append (by decide)]
    rfl
  | authenticationSasl mechanisms => exact decodes_of_message made (decodeSasl_iff mechanisms)
  | authenticationSaslContinue data =>
    refine decodes_of_trivial made rfl ?_ trivial
    rw [decodeAuthentication, takeInt32_append (by decide)]
    rfl
  | authenticationSaslFinal data =>
    refine decodes_of_trivial made rfl ?_ trivial
    rw [decodeAuthentication, takeInt32_append (by decide)]
    rfl
  | parameterStatus name value =>
    exact decodes_of_packed (f := fun x : Text × Text => .parameterStatus x.1 x.2)
      (reads_cstring.both reads_cstring)
      (fun x y same => Prod.ext (Backend.parameterStatus.inj same).1
        (Backend.parameterStatus.inj same).2)
      (a := (name, value)) rfl made rfl Iff.rfl
  | backendKeyData pid secret =>
    exact decodes_of_codec (f := fun x : Int × Int => .backendKeyData x.1 x.2)
      (reads_int32.both reads_int32)
      (fun x y same => Prod.ext (Backend.backendKeyData.inj same).1
        (Backend.backendKeyData.inj same).2)
      made rfl (iff_of_true trivial ⟨trivial, trivial⟩)
  | readyForQuery status =>
    have framed : message ⟨READY_FOR_QUERY, [statusByte status]⟩ = some bytes := made
    refine decodes_of_trivial framed rfl ?_ trivial
    rw [decodeStatus, statusOf_statusByte, Option.map_some]
  | rowDescription columns =>
    exact decodes_of_codec (Codec.Reads.counted reads_count16 reads_fieldSpec)
      (fun x y same => Backend.rowDescription.inj same) made rfl Iff.rfl
  | dataRow values =>
    exact decodes_of_codec (Codec.Reads.counted reads_count16 reads_value)
      (fun x y same => Backend.dataRow.inj same) made rfl (iff_of_true trivial fun _ _ => trivial)
  | commandComplete tag =>
    exact decodes_of_packed reads_cstring (fun x y same => Backend.commandComplete.inj same)
      rfl made rfl Iff.rfl
  | emptyQueryResponse => exact decodes_of_empty made rfl trivial
  | errorResponse fields =>
    exact decodes_of_fields (fun x y same => Backend.errorResponse.inj same) made rfl Iff.rfl
  | noticeResponse fields =>
    exact decodes_of_fields (fun x y same => Backend.noticeResponse.inj same) made rfl Iff.rfl
  | notificationResponse pid channel payload =>
    refine decodes_of_codec (f := fun x : Int × Text × Text =>
        .notificationResponse x.1 x.2.1 x.2.2)
      (reads_int32.both (reads_cstring.both reads_cstring)) ?_ made rfl
      ⟨fun free => ⟨trivial, free⟩, And.right⟩
    intro x y same
    obtain ⟨pids, channels, payloads⟩ := Backend.notificationResponse.inj same
    exact Prod.ext pids (Prod.ext channels payloads)
  | negotiateProtocolVersion version options =>
    exact decodes_of_codec (f := fun x : Int × List Text => .negotiateProtocolVersion x.1 x.2)
      (reads_int32.both (Codec.Reads.counted reads_count32 reads_cstring))
      (fun x y same => Prod.ext (Backend.negotiateProtocolVersion.inj same).1
        (Backend.negotiateProtocolVersion.inj same).2)
      made rfl ⟨fun free => ⟨trivial, free⟩, And.right⟩
  | parseComplete => exact decodes_of_empty made rfl trivial
  | bindComplete => exact decodes_of_empty made rfl trivial
  | closeComplete => exact decodes_of_empty made rfl trivial
  | noData => exact decodes_of_empty made rfl trivial
  | portalSuspended => exact decodes_of_empty made rfl trivial
  | parameterDescription oids =>
    exact decodes_of_codec (Codec.Reads.counted reads_count16 reads_int32)
      (fun x y same => Backend.parameterDescription.inj same) made rfl
      (iff_of_true trivial fun _ _ => trivial)
  | copyInResponse columnCount => exact decodes_of_copy made rfl trivial
  | copyOutResponse columnCount => exact decodes_of_copy made rfl trivial
  | copyData data =>
    have by_tag : decoders.lookup COPY_DATA = some decodeData := rfl
    exact decodes_of_trivial made by_tag rfl trivial
  | copyDone => exact decodes_of_empty made rfl trivial

/-! ## A run of messages -/

theorem consume_frames {ms : List Message} (short : ∀ m ∈ ms, m.payload.length + 4 < 2 ^ 31) :
    frames.consume keep () (Stream.frames ms) = (ms, (), []) := by
  induction ms with
  | nil => rw [Stream.frames_nil, Splitter.consume_of_next_none rfl rfl]
  | cons m ms ih =>
    obtain ⟨first, later⟩ := List.forall_mem_cons.mp short
    rw [Stream.frames_cons, Splitter.consume_of_next_some rfl (takeFrame_frame first _)]
    have rest : frames.consume keep (keep.accept () m).1 (Stream.frames ms) = (ms, (), []) :=
      ih later
    rw [rest]
    rfl

/-- What was made is a run of frames, which the client takes apart one by one. -/
theorem decodeAll_of_makeAll {bs : List Backend} {bytes : Bytes} (made : makeAll bs = some bytes) :
    ∃ ms : List Message, bytes = Stream.frames ms ∧
      (∀ m ∈ ms, m.payload.length + 4 < 2 ^ 31) ∧
      (decodeAll ms = some bs ↔ ∀ b ∈ bs, b.Sound) := by
  induction bs generalizing bytes with
  | nil =>
    obtain rfl := Option.some.inj made
    exact ⟨[], rfl, by simp, by simp [decodeAll]⟩
  | cons b bs ih =>
    simp only [makeAll, Option.bind_eq_bind, Option.bind_eq_some_iff, Option.some.injEq] at made
    obtain ⟨front, first, back, others, rfl⟩ := made
    obtain ⟨m, rfl, short, sound⟩ := decodes_of_make first
    obtain ⟨ms, rfl, shorts, sounds⟩ := ih others
    refine ⟨m :: ms, (Stream.frames_cons m ms).symm, List.forall_mem_cons.mpr ⟨short, shorts⟩, ?_⟩
    rw [List.forall_mem_cons, ← sound, ← sounds]
    constructor
    · intro decoded
      simp only [decodeAll, Option.bind_eq_bind, Option.bind_eq_some_iff, Option.some.injEq,
        List.cons.injEq] at decoded
      obtain ⟨b', one, bs', all, rfl, rfl⟩ := decoded
      exact ⟨one, all⟩
    · rintro ⟨one, all⟩
      rw [decodeAll, one, all]
      rfl

theorem arrived_frames {ms : List Message} (short : ∀ m ∈ ms, m.payload.length + 4 < 2 ^ 31)
    {pieces : List Bytes} (whole : pieces.flatten = Stream.frames ms) :
    arrived pieces = (ms, []) := by
  have waiting : frames.consume keep () [] = ([], (), []) :=
    Splitter.consume_of_next_none rfl rfl
  rw [arrived, Splitter.feed_eq_consume pieces waiting, List.nil_append, whole,
    consume_frames short]

/-- However the bytes of a run of messages are cut on their way, no byte is left and the client
comes to the messages that were sent, if and only if each of them is sound. -/
theorem arrived_decoded_iff {bs : List Backend} {pieces : List Bytes}
    (sent : makeAll bs = some pieces.flatten) :
    (arrived pieces).2 = [] ∧
      (decodeAll (arrived pieces).1 = some bs ↔ ∀ b ∈ bs, b.Sound) := by
  obtain ⟨ms, whole, short, sound⟩ := decodeAll_of_makeAll sent
  rw [arrived_frames short whole]
  exact ⟨rfl, sound⟩

/-- The answer to a query of one row, and the bytes of it in three pieces. -/
def oneRow : List Backend :=
  [.rowDescription [{ name := ['n'], oid := 23 }], .dataRow [some [0x31], none],
    .commandComplete "SELECT 1".toList, .readyForQuery .T]

def oneRowPieces : List Bytes :=
  let bytes := (makeAll oneRow).getD []
  [bytes.take 3, (bytes.drop 3).take 40, bytes.drop 43]

/-- The middle piece begins in a length and ends in a row. -/
theorem oneRow_arrived :
    (arrived oneRowPieces).2 = [] ∧ decodeAll (arrived oneRowPieces).1 = some oneRow := by
  have sent : makeAll oneRow = some oneRowPieces.flatten := by decide
  have sound : ∀ b ∈ oneRow, b.Sound := by
    simp only [oneRow, List.forall_mem_cons, Backend.Sound, List.not_mem_nil, false_imp_iff,
      implies_true, and_true]
    exact ⟨by decide, trivial, by decide⟩
  exact ⟨(arrived_decoded_iff sent).1, (arrived_decoded_iff sent).2.mpr sound⟩

end PgMimic.Messages
