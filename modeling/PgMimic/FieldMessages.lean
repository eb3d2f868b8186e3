import Mathlib.Algebra.GroupWithZero.Nat
import PgMimic.Connection
import PgMimic.CopyTokens
import PgMimic.WireLayout

/-!
# The fields of errors and notices

An ErrorResponse and a NoticeResponse are a run of fields, each a code and a string up to a
NUL, and a NUL behind the last. The strings come from exception texts, and these echo what a
client has sent.
-/

namespace PgMimic.FieldMessages

open PgMimic.Copy (Text)
open PgMimic.Endpoint (TextTables)
open PgMimic.Stream (Tag Message)
open PgMimic.Wire (cstring NulFree)

def ERROR_RESPONSE : Tag := 0x45

def NOTICE_RESPONSE : Tag := 0x4E

/-- A field code: one byte of ASCII, and not the one that ends the message. -/
abbrev FieldCode := { byte : UInt8 // 0 < byte ∧ byte < 128 }

abbrev Fields := Dict FieldCode Text

def SEVERITY : FieldCode := ⟨0x53, by decide⟩

def SEVERITY_NONLOCALIZED : FieldCode := ⟨0x56, by decide⟩

def SQLSTATE : FieldCode := ⟨0x43, by decide⟩

def MESSAGE : FieldCode := ⟨0x4D, by decide⟩

/-- The four fields that every report has, and those that were given with it. -/
def report (severity sqlstate message : Text) (given : List (FieldCode × Text)) : Fields :=
  given.foldl (fun fields entry => fields.set entry.1 entry.2)
    ((((Dict.empty.set SEVERITY severity).set SEVERITY_NONLOCALIZED severity).set SQLSTATE
      sqlstate).set MESSAGE message)

/-- What `_dispatch` reports a `PgError` with. -/
def errorFields (e : PgError) (given : List (FieldCode × Text)) : Fields :=
  report "ERROR".toList e.sqlstate.toList e.message.toList given

/-- What `_dispatch` reports any other exception with. -/
def internalErrorFields (text : Text) : Fields :=
  report "ERROR".toList "XX000".toList text []

/-- `Connection.notice`. -/
def noticeFields (message severity : Text) (given : List (FieldCode × Text)) : Fields :=
  report severity "00000".toList message given

/-- `_message`: a length that is no Int32 is a `struct.error`. -/
def message (m : Message) : Option (List UInt8) :=
  if m.payload.length + 4 < 2 ^ 31 then some m.frame else none

def fieldsPayload (entries : List (FieldCode × Text)) : List UInt8 :=
  entries.flatMap (fun entry => entry.1.val :: cstring entry.2) ++ [0]

/-- `_fields_message`. -/
def fieldsMessage (tag : Tag) (fields : Fields) : Option (List UInt8) :=
  message ⟨tag, fieldsPayload fields.entries⟩

def makeErrorResponse (fields : Fields) : Option (List UInt8) := fieldsMessage ERROR_RESPONSE fields

def makeNoticeResponse (fields : Fields) : Option (List UInt8) :=
  fieldsMessage NOTICE_RESPONSE fields

def trueTexts : List Text :=
  ["t".toList, "true".toList, "y".toList, "yes".toList, "on".toList, "1".toList]

def falseTexts : List Text :=
  ["f".toList, "false".toList, "n".toList, "no".toList, "off".toList, "0".toList]

/-- `_bool_literal`, of a text parameter. -/
def boolLiteral (t : TextTables) (value : Text) : Except PgError Bool :=
  let text := t.lower (Endpoint.strip value)
  if text ∈ trueTexts then .ok true
  else if text ∈ falseTexts then .ok false
  else .error ⟨"22P02",
    "invalid input syntax for type boolean: \"" ++ String.ofList value ++ "\"", []⟩

/-! ## How a client reads them -/

/-- Codes and strings up to the NUL behind the last, with nothing after it. -/
def decodeFields : List UInt8 → Option (List (UInt8 × Text))
  | [] => none
  | code :: rest =>
    if code = 0 then if rest = [] then some [] else none
    else
      match _split : rest.dropWhile (· ≠ 0) with
      | [] => none
      | _ :: later => do
        let value ← Utf8.whole (rest.takeWhile (· ≠ 0))
        let fields ← decodeFields later
        some ((code, value) :: fields)
termination_by bytes => bytes.length
decreasing_by
  have suffix := (List.dropWhile_suffix (l := rest) (· ≠ 0)).length_le
  rw [_split] at suffix
  simp only [List.length_cons] at suffix ⊢
  omega

/-- The client comes to the fields the message was made of, in their order. -/
def Recovered (sent : Option (List UInt8)) (fields : Fields) : Prop :=
  ∃ bytes, sent = some bytes ∧
    decodeFields (bytes.drop 5) = some (fields.entries.map fun entry => (entry.1.val, entry.2))

/-- No string has a NUL, and the message has a length. -/
structure Sound (fields : Fields) : Prop where
  nulFree : ∀ entry ∈ fields.entries, NulFree entry.2
  short : (fields.entries.map fun entry => (Utf8.encode entry.2).length + 2).sum + 5 < 2 ^ 31

/-! ## One field after another -/

section Decoding

variable {code : FieldCode} {value : Text} {rest : List UInt8}

theorem decodeFields_field {front : List UInt8} (bare : 0 ∉ front) :
    decodeFields (code.val :: (front ++ 0 :: rest)) =
      (Utf8.whole front).bind fun text =>
        (decodeFields rest).map fun fields => (code.val, text) :: fields := by
  have nonzero : ∀ byte ∈ front, decide (byte ≠ 0) = true := by
    intro byte member
    exact decide_eq_true fun zero => bare (zero ▸ member)
  have behind : (front ++ 0 :: rest).dropWhile (· ≠ 0) = 0 :: rest := by
    rw [List.dropWhile_append_of_pos nonzero]
    rfl
  have before : (front ++ 0 :: rest).takeWhile (· ≠ 0) = front := by
    rw [List.takeWhile_append_of_pos nonzero]
    simp
  have positive : code.val ≠ 0 := fun zero => by
    have low := code.property.1
    rw [zero] at low
    exact absurd low (by decide)
  rw [decodeFields, if_neg positive]
  split
  · rename_i none_
    rw [behind] at none_
    cases none_
  · rename_i split_
    rw [behind] at split_
    cases split_
    rw [before]
    cases Utf8.whole front with
    | none => rfl
    | some text => cases decodeFields rest <;> rfl

/-- A text up to a NUL, and what is behind it. -/
theorem decodeFields_cstring (free : NulFree value) :
    decodeFields (code.val :: (cstring value ++ rest)) =
      (decodeFields rest).map fun fields => (code.val, value) :: fields := by
  have bare : 0 ∉ Utf8.encode value := by
    intro zero
    obtain ⟨c, member, nul⟩ := Utf8.zero_mem_encode_iff.mp zero
    exact free c member nul
  rw [cstring, List.append_assoc, List.singleton_append, decodeFields_field bare,
    Utf8.whole_eq_some_iff.mpr rfl]
  rfl

/-- A text with a NUL ends there for the client. -/
theorem decodeFields_nul (cut : ¬NulFree value) {fields : List (UInt8 × Text)}
    (read : decodeFields (code.val :: (cstring value ++ rest)) = some fields) :
    ∃ text later, fields = (code.val, text) :: later ∧ text ≠ value := by
  have zero : 0 ∈ Utf8.encode value := by
    rw [Utf8.zero_mem_encode_iff]
    simpa [NulFree] using cut
  obtain ⟨front, back, split, bare⟩ := List.eq_append_cons_of_mem zero
  rw [cstring, List.append_assoc, split, List.append_assoc, List.cons_append,
    decodeFields_field bare] at read
  obtain ⟨text, whole, read⟩ := Option.bind_eq_some_iff.mp read
  obtain ⟨later, -, rfl⟩ := Option.map_eq_some_iff.mp read
  refine ⟨text, later, rfl, ?_⟩
  rintro rfl
  rw [Utf8.whole_eq_some_iff.mp whole] at split
  simpa using congrArg List.length split

/-- The fields come back if and only if none of their texts has a NUL. -/
theorem decodeFields_payload_iff (entries : List (FieldCode × Text)) :
    decodeFields (fieldsPayload entries) = some (entries.map fun entry => (entry.1.val, entry.2)) ↔
      ∀ entry ∈ entries, NulFree entry.2 := by
  induction entries with
  | nil => simp [fieldsPayload, decodeFields]
  | cons entry entries ih =>
    obtain ⟨code, value⟩ := entry
    have split : fieldsPayload ((code, value) :: entries) =
        code.val :: (cstring value ++ fieldsPayload entries) := by
      simp [fieldsPayload]
    rw [split, List.forall_mem_cons, List.map_cons]
    by_cases free : NulFree value
    · rw [decodeFields_cstring free, ← ih]
      constructor
      · intro read
        obtain ⟨later, found, same⟩ := Option.map_eq_some_iff.mp read
        exact ⟨free, found.trans (congrArg some (List.cons.inj same).2)⟩
      · rintro ⟨-, found⟩
        rw [found]
        rfl
    · refine iff_of_false (fun read => ?_) fun both => free both.1
      obtain ⟨text, later, same, other⟩ := decodeFields_nul free read
      exact other (Prod.mk.inj (List.cons.inj same).1).2.symm

end Decoding

theorem length_fieldsPayload (entries : List (FieldCode × Text)) :
    (fieldsPayload entries).length =
      (entries.map fun entry => (Utf8.encode entry.2).length + 2).sum + 1 := by
  induction entries with
  | nil => rfl
  | cons entry entries ih =>
    have split : fieldsPayload (entry :: entries) =
        entry.1.val :: (cstring entry.2 ++ fieldsPayload entries) := by
      simp [fieldsPayload]
    rw [split, List.length_cons, List.length_append, ih, cstring, List.length_append,
      List.length_singleton, List.map_cons, List.sum_cons]
    omega

theorem recovered_iff (tag : Tag) (fields : Fields) :
    Recovered (fieldsMessage tag fields) fields ↔ Sound fields := by
  have length := length_fieldsPayload fields.entries
  rw [fieldsMessage, message]
  by_cases short : (fieldsPayload fields.entries).length + 4 < 2 ^ 31
  · rw [if_pos short]
    have payload : (Message.frame ⟨tag, fieldsPayload fields.entries⟩).drop 5 =
        fieldsPayload fields.entries := rfl
    constructor
    · rintro ⟨bytes, sent, read⟩
      obtain rfl := Option.some.inj sent
      rw [payload, decodeFields_payload_iff] at read
      exact ⟨read, by omega⟩
    · intro sound
      refine ⟨_, rfl, ?_⟩
      rw [payload, decodeFields_payload_iff]
      exact sound.nulFree
  · rw [if_neg short]
    refine iff_of_false ?_ fun sound => short (by have fits := sound.short; omega)
    rintro ⟨bytes, sent, -⟩
    cases sent

/-- A client recovers the fields of an error, and of a notice, if and only if no string has a
NUL and the message is not too long to be sent. -/
theorem fields_recovered_iff (fields : Fields) :
    (Recovered (makeErrorResponse fields) fields ↔ Sound fields) ∧
      (Recovered (makeNoticeResponse fields) fields ↔ Sound fields) :=
  ⟨recovered_iff ERROR_RESPONSE fields, recovered_iff NOTICE_RESPONSE fields⟩

/-- `maybe` with a NUL behind it, bound to a boolean. -/
def nulParameter : Text := "maybe".toList ++ [Char.ofNat 0]

/-- The message of the error ends at the NUL of the parameter, and its closing quote is read as
a field code. -/
theorem nul_parameter_cuts_message : ∃ e, boolLiteral Endpoint.asciiTables nulParameter = .error e ∧
    ¬Recovered (makeErrorResponse (errorFields e [])) (errorFields e []) := by
  refine ⟨_, rfl, fun recovered => ?_⟩
  have sound := (recovered_iff ERROR_RESPONSE _).mp recovered
  have echoed := sound.nulFree (MESSAGE, _) (List.mem_append_right [_, _, _] List.mem_cons_self)
  exact echoed (Char.ofNat 0) (by simp [nulParameter]) rfl

end PgMimic.FieldMessages
