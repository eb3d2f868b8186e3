import PgMimic.ArrayFrames
import PgMimic.ArrayText
import PgMimic.Scalars

/-!
# Arrays of scalars

The array codecs leave every element to the codecs of its type. Where these agree on the
elements, an array comes to the session as one and the same list in either format.
-/

namespace PgMimic.Scalars

open Outcomes (bind_ok mapM_ok)
open PgMimic.Arrays (Element Item Result Frame packSize packDimension packBound dimensions)
open PgMimic.Copy (Text)
open PgMimic.Endpoint (TextTables)
open PgMimic.Intervals (intText timedeltaOut)
open PgMimic.Temporal (Date)
open Trim (trim_eq_self_iff)
open Wire (packInt32 packParam)

/-- An element of a list: None is a NULL. -/
abbrev Entry := Option Scalar

section Codecs

variable (py : Python) (t : TextTables)

/-- What raises is not told apart. -/
def orRaise {α : Type} : Option α → Result α
  | some a => .ok a
  | none => .error (.valueError "")

/-- The text of an element. -/
def shown (oid : Nat) (entry : Entry) : Element := entry.bind (encodeValue py oid)

/-- `format_array_literal`: an element without a text raises. -/
def formatArrayLiteral (oid : Nat) (value : List (Nested Entry)) : Result Text :=
  if (Nested.list value).leaves.all fun entry => entry.all fun v =>
      (encodeValue py oid v).isSome then
    Arrays.formatArrayLiteral t (value.map (Nested.map (shown py oid)))
  else .error (.valueError "")

/-- The length of an element and the element, of which -1 alone is a NULL. -/
def packEntry (oid : Nat) : Entry → Result Bytes
  | none => .ok (packInt32 (-1))
  | some v => do
    let encoded ← orRaise (encodeValueBinary py oid v)
    .ok ((← packSize encoded.length) ++ encoded)

/-- `encode_array_binary`, of elements of a type. -/
def encodeArrayBinary (oid : Nat) (value : List (Nested Entry)) : Result Bytes := do
  let dims ← dimensions value
  let flat := if dims.isEmpty then [] else (Nested.list value).leaves
  let hasNull := flat.any Option.isNone
  let header ← packSize dims.length
  let sizes ← dims.mapM packDimension
  let elements ← flat.mapM (packEntry py oid)
  .ok (header ++ packInt32 (if hasNull then 1 else 0) ++ packInt32 oid ++ sizes.flatten ++
    elements.flatten)

/-- `_BINARY_DECODERS`, of the types whose values are not read as UTF-8. -/
def decoders : Arrays.Decoders := fun oid =>
  ((BINARY_DECODERS py).lookup oid).map fun decode data => orRaise (decode data)

end Codecs

section Agreement

variable {py : Python} {t : TextTables} {oid : Nat} {value : List (Nested Entry)}

/-! ## Frames -/

/-- An element as a frame has it. -/
def framed (py : Python) (oid : Nat) (entry : Entry) : Option Bytes :=
  entry.bind (encodeValueBinary py oid)

/-- An element that can be written. -/
def Writes (py : Python) (oid : Nat) (entry : Entry) : Prop :=
  ∀ v ∈ entry, ∃ data, encodeValueBinary py oid v = some data ∧ data.length < 2 ^ 31

theorem packEntry_ok (entry : Entry) (bytes : Bytes) :
    packEntry py oid entry = .ok bytes ↔
      Writes py oid entry ∧ packParam (framed py oid entry) = bytes := by
  cases entry with
  | none => simp [packEntry, framed, packParam, Writes]
  | some v =>
    simp only [packEntry, bind_ok, Writes, Option.mem_def, Option.some.injEq, forall_eq',
      framed, Option.bind_some]
    cases encodeValueBinary py oid v with
    | none =>
      refine iff_of_false ?_ ?_
      · rintro ⟨data, raised, -⟩
        cases raised
      · rintro ⟨⟨data, raised, -⟩, -⟩
        cases raised
    | some data =>
      simp only [orRaise, Except.ok.injEq, Option.some.injEq, exists_eq_left', packParam,
        Arrays.packSize_ok]
      constructor
      · rintro ⟨front, ⟨fits, rfl⟩, rfl⟩
        exact ⟨fits, rfl⟩
      · rintro ⟨fits, rfl⟩
        exact ⟨_, ⟨fits, rfl⟩, rfl⟩

theorem flags_fit (hasNull : Bool) : Arrays.IsInt32 (if hasNull then 1 else 0) := by
  cases hasNull with
  | false => exact ⟨by decide, by decide⟩
  | true => exact ⟨by decide, by decide⟩

/-- Sizes that all have the lower bound 1. -/
def ones (dims : List Nat) : List (Nat × Int) := dims.map fun size => (size, 1)

theorem ones_few {dims : List Nat} (few : dims.length < 2 ^ 31) : (ones dims).length < 2 ^ 31 :=
  (List.length_map _).trans_lt few

theorem ones_small {dims : List Nat} (small : ∀ size ∈ dims, size < 2 ^ 31) :
    ∀ dim ∈ ones dims, dim.1 < 2 ^ 31 ∧ Arrays.IsInt32 dim.2 := by
  intro dim member
  obtain ⟨size, inside, rfl⟩ := List.mem_map.mp member
  have one : Arrays.IsInt32 1 := ⟨by decide, by decide⟩
  exact ⟨small size inside, one⟩

theorem ones_count {dims : List Nat} {elements : List (Option Bytes)}
    (count : elements.length = if dims = [] then 0 else dims.prod) :
    elements.length = if ones dims = [] then 0 else ((ones dims).map Prod.fst).prod := by
  rw [count, ones, Arrays.sizes_of_ones]
  simp only [List.map_eq_nil_iff]

/-- The frame of these elements. -/
def frameFor (oid : Nat) (hasNull : Bool) (dims : List Nat) (elements : List (Option Bytes))
    (known : oid < 2 ^ 32) (few : dims.length < 2 ^ 31) (small : ∀ size ∈ dims, size < 2 ^ 31)
    (short : ∀ data, some data ∈ elements → data.length < 2 ^ 31)
    (count : elements.length = if dims = [] then 0 else dims.prod) : Frame where
  flags := if hasNull then 1 else 0
  oid := oid
  dims := ones dims
  elements := elements
  flags_int32 := flags_fit hasNull
  oid_uint32 := known
  ndim_int32 := ones_few few
  dims_int32 := ones_small small
  lengths_int32 := short
  count := ones_count count

/-- What is encoded is a frame: the sizes of the value, and its elements in one row. -/
theorem encodeArrayBinary_ok {data : Bytes} (known : oid < 2 ^ 32)
    (written : encodeArrayBinary py oid value = .ok data) :
    ∃ frame : Frame, frame.bytes = data ∧ frame.oid = oid ∧
      dimensions value = .ok frame.sizes ∧
      frame.elements = (Nested.list value).leaves.map (framed py oid) ∧
      ∀ entry ∈ (Nested.list value).leaves, Writes py oid entry := by
  obtain ⟨dims, sized, written⟩ := bind_ok.mp written
  have flat : (if dims.isEmpty then [] else (Nested.list value).leaves) =
      (Nested.list value).leaves := by
    split
    · rw [(Arrays.dims_nil_iff sized).mp (List.isEmpty_iff.mp ‹_›)]
      rfl
    · rfl
  rw [flat] at written
  obtain ⟨header, ndim, written⟩ := bind_ok.mp written
  obtain ⟨sizes, packed, written⟩ := bind_ok.mp written
  obtain ⟨elements, packed', written⟩ := bind_ok.mp written
  obtain ⟨few, rfl⟩ := Arrays.packSize_ok.mp ndim
  obtain ⟨small, front⟩ := Arrays.mapM_total Arrays.packDimension_ok packed
  obtain ⟨writes, back⟩ := Arrays.mapM_total packEntry_ok packed'
  have short : ∀ data, some data ∈ (Nested.list value).leaves.map (framed py oid) →
      data.length < 2 ^ 31 := by
    intro data inside
    obtain ⟨entry, member, same⟩ := List.mem_map.mp inside
    obtain ⟨v, rfl, encoded⟩ := Option.bind_eq_some_iff.mp same
    obtain ⟨data', encoded', fits⟩ := writes (some v) member v rfl
    rw [Option.some.inj (encoded.symm.trans encoded')]
    exact fits
  refine ⟨frameFor oid ((Nested.list value).leaves.any Option.isNone) dims _ known few small short
    (by rw [List.length_map]; exact Arrays.length_leaves sized), ?_, rfl, ?_, rfl, writes⟩
  · rw [← Except.ok.inj written, front, back]
    simp only [Frame.bytes, frameFor, ones, List.length_map, List.flatMap_map, List.append_assoc]
  · rw [sized, Frame.sizes]
    exact congrArg Except.ok (Arrays.sizes_of_ones dims).symm

/-! ## What the session sees -/

/-- The types read as UTF-8 are so here too. -/
theorem scalarDecoder_eq {decode : Bytes → Option Text}
    (found : (BINARY_DECODERS py).lookup oid = some decode) {data : Bytes} {text : Text}
    (decoded : decode data = some text) :
    ∃ decode', Arrays.scalarDecoder (decoders py) oid = some decode' ∧ decode' data = .ok text := by
  rw [Arrays.scalarDecoder]
  by_cases plain : oid ∈ [25, 1043, 1042, 19]
  · have whole : Utf8.whole = decode := by
      simp only [List.mem_cons, List.not_mem_nil, or_false] at plain
      rcases plain with rfl | rfl | rfl | rfl <;> exact Option.some.inj found
    rw [← whole] at decoded
    refine ⟨_, if_pos plain, ?_⟩
    rw [Arrays.decodeText, decoded]
  · refine ⟨fun data => orRaise (decode data), ?_, congrArg orRaise decoded⟩
    rw [if_neg plain, decoders, found, Option.map_some]

/-- An element that is written is read as its text. -/
theorem decodeElement_framed (array : Bytes → Result (List Item)) {entry : Entry}
    (natural : ∀ v ∈ entry, Natural oid v) (writes : Writes py oid entry) :
    Arrays.decodeElement (Arrays.decodeParam (decoders py) array oid) (framed py oid entry) =
      .ok (.leaf (shown py oid entry)) := by
  cases entry with
  | none => rfl
  | some v =>
    obtain ⟨data, encoded, -⟩ := writes v rfl
    obtain ⟨text, known⟩ :=
      Option.isSome_iff_exists.mp (encodeValue_isSome (natural v rfl) encoded)
    have read := decoded_encoded (natural v rfl) encoded
    rw [framed, Option.bind_some, encoded, shown, Option.bind_some, known]
    rw [known, decodeBinaryParam, Option.bind_eq_bind, Option.bind_eq_some_iff] at read
    obtain ⟨decode, found, decoded⟩ := read
    obtain ⟨decode', found', decoded'⟩ := scalarDecoder_eq found decoded
    rw [Arrays.decodeElement, Arrays.decodeParam, found']
    exact congrArg (Except.map fun text => Nested.leaf (some text)) decoded'

/-- The frame of a value holds the texts of its elements. -/
theorem holds_shown (array : Bytes → Result (List Item)) {frame : Frame} (same : frame.oid = oid)
    (sized : dimensions value = .ok frame.sizes)
    (elements : frame.elements = (Nested.list value).leaves.map (framed py oid))
    (read : ∀ entry ∈ (Nested.list value).leaves,
      Arrays.decodeElement (Arrays.decodeParam (decoders py) array oid) (framed py oid entry) =
        .ok (.leaf (shown py oid entry))) :
    frame.Holds (Arrays.decodeParam (decoders py) array frame.oid)
      (value.map (Nested.map (shown py oid))) := by
  have none_ : frame.sizes = [] ↔ frame.dims = [] := List.map_eq_nil_iff
  rw [Frame.Holds]
  by_cases empty : frame.dims = []
  · rw [if_pos empty, (Arrays.dims_nil_iff sized).mp (none_.mpr empty)]
    rfl
  · rw [if_neg empty]
    have shape := Arrays.hasShape_of_sized sized fun nothing =>
      empty (none_.mp ((Arrays.dims_nil_iff sized).mpr nothing))
    have mapped : Nested.list (value.map (Nested.map (shown py oid))) =
        (Nested.list value).map (shown py oid) := by
      rw [Nested.map, Nested.mapAll_eq]
    have shape' := (Nested.hasShape_map (shown py oid) _ _).mpr shape
    rw [mapped]
    refine ⟨Nested.hasShape_mono (fun _ _ => trivial) _ _ shape', ?_⟩
    rw [Nested.atDepth_isLeaf _ _ shape', Nested.leaves_map, elements, same,
      List.forall₂_map_left_iff, List.forall₂_map_right_iff, List.forall₂_map_right_iff,
      List.forall₂_same]
    exact read

theorem formatArrayLiteral_ok {text : Text}
    (formatted : formatArrayLiteral py t oid value = .ok text) :
    text = Arrays.formatNested t (.list (value.map (Nested.map (shown py oid)))) := by
  rw [formatArrayLiteral] at formatted
  split at formatted
  case isTrue => exact ((Arrays.formatArrayLiteral_ok t).mp formatted).2
  case isFalse => cases formatted

/-- What is encoded in binary is read as the list of the texts of its elements. -/
theorem decodeArrayBinary_encoded {data : Bytes} (depth : Nat) (known : oid < 2 ^ 32)
    (natural : ∀ v, some v ∈ (Nested.list value).leaves → Natural oid v)
    (full : value = [] ∨ (Nested.list value).Full)
    (encoded : encodeArrayBinary py oid value = .ok data) :
    Arrays.decodeArrayBinary (decoders py) (depth + 1) data =
      .ok (value.map (Nested.map (shown py oid))) := by
  obtain ⟨frame, rfl, same, sized, elements, writes⟩ := encodeArrayBinary_ok known encoded
  rw [Arrays.decode_frame_ok]
  refine ⟨holds_shown _ same sized elements fun entry inside => ?_,
    (Arrays.positive_tail_iff sized).mpr full⟩
  refine decodeElement_framed _ ?_ (writes entry inside)
  rintro v rfl
  exact natural v inside

/-- And what is formatted, where the texts survive. -/
theorem parseArrayLiteral_formatted {text : Text}
    (survives : ∀ v, some v ∈ (Nested.list value).leaves →
      Arrays.Survives t (encodeValue py oid v))
    (formatted : formatArrayLiteral py t oid value = .ok text) :
    Arrays.parseArrayLiteral t text = .ok (value.map (Nested.map (shown py oid))) := by
  obtain rfl := formatArrayLiteral_ok formatted
  rw [Arrays.parse_formatted_iff]
  have mapped : Nested.list (value.map (Nested.map (shown py oid))) =
      (Nested.list value).map (shown py oid) := by
    rw [Nested.map, Nested.mapAll_eq]
  rw [mapped, Nested.leaves_map]
  intro element inside
  obtain ⟨entry, member, rfl⟩ := List.mem_map.mp inside
  cases entry with
  | none => exact trivial
  | some v => exact survives v member

/-! ## Elements that survive -/

theorem survives_solid {text : Text} (solid : ∀ c ∈ text, isSpace c = false) :
    Arrays.Survives t (some text) := by
  refine .inr (trim_eq_self_iff.mpr ⟨?_, ?_⟩)
  · intro c first
    exact solid c (List.mem_of_mem_head? first)
  · intro c last
    exact solid c (List.mem_of_mem_getLast? last)

theorem survives_special {text : Text} {c : Char} (inside : c ∈ text)
    (special : c ∈ Arrays.specials) : Arrays.Survives t (some text) := by
  have found : (text.any fun c => decide (c ∈ Arrays.specials)) = true :=
    List.any_eq_true.mpr ⟨c, inside, decide_eq_true special⟩
  exact .inl (by simp [Arrays.quotes, found])

theorem digit_solid {ds : List Nat} (small : ∀ d ∈ ds, d < 10) :
    ∀ c ∈ Positional.digitText ds, isSpace c = false := by
  intro c inside
  obtain ⟨d, member, rfl⟩ := List.mem_map.mp inside
  have digits : ∀ d < 10, isSpace (Nat.digitChar d) = false := by decide
  exact digits d (small d member)

theorem padded_solid (width n : Nat) : ∀ c ∈ Intervals.padded width n, isSpace c = false :=
  digit_solid (Intervals.padded_small width n)

theorem hex_solid (data : Bytes) : ∀ c ∈ hex data, isSpace c = false := by
  intro c inside
  obtain ⟨byte, -, digit⟩ := List.mem_flatMap.mp inside
  have digits : ∀ d < 16, isSpace (Nat.digitChar d) = false := by decide
  have small := byte.toNat_lt
  simp only [List.mem_cons, List.not_mem_nil, or_false] at digit
  rcases digit with rfl | rfl
  · exact digits _ (by omega)
  · exact digits _ (by omega)

theorem boolOut_solid (b : Bool) : ∀ c ∈ boolOut b, isSpace c = false := by
  cases b with
  | false => exact List.forall_mem_singleton.mpr (by decide)
  | true => exact List.forall_mem_singleton.mpr (by decide)

theorem intText_solid (n : Int) : ∀ c ∈ intText n, isSpace c = false := by
  intro c inside
  rcases List.mem_append.mp inside with sign | digit
  · split at sign
    · rw [List.mem_singleton.mp sign]
      decide
    · cases sign
  · exact digit_solid (Intervals.digits_small _) c digit

/-- What stands between the digits of dates and times is no space. -/
theorem solid_cons {c : Char} {text : Text} (first : isSpace c = false)
    (later : ∀ d ∈ text, isSpace d = false) : ∀ d ∈ c :: text, isSpace d = false :=
  List.forall_mem_cons.mpr ⟨first, later⟩

theorem solid_append {front back : Text} (first : ∀ c ∈ front, isSpace c = false)
    (later : ∀ c ∈ back, isSpace c = false) : ∀ c ∈ front ++ back, isSpace c = false :=
  List.forall_mem_append.mpr ⟨first, later⟩

theorem isoDate_solid (d : Date) : ∀ c ∈ Temporal.isoDate d, isSpace c = false := by
  refine solid_append (padded_solid _ _) (solid_cons (by decide) ?_)
  exact solid_append (padded_solid _ _) (solid_cons (by decide) (padded_solid _ _))

theorem micros_solid (n : Nat) :
    ∀ c ∈ (if n = 0 then [] else '.' :: Intervals.padded 6 n), isSpace c = false := by
  split
  · exact fun c inside => absurd inside List.not_mem_nil
  · exact solid_cons (by decide) (padded_solid _ _)

theorem clock_solid (hours minutes seconds micros : Nat) :
    ∀ c ∈ Intervals.padded 2 hours ++ ':' :: (Intervals.padded 2 minutes ++ ':' ::
      (Intervals.padded 2 seconds ++
        (if micros = 0 then [] else '.' :: Intervals.padded 6 micros))), isSpace c = false := by
  refine solid_append (padded_solid _ _) (solid_cons (by decide) ?_)
  refine solid_append (padded_solid _ _) (solid_cons (by decide) ?_)
  exact solid_append (padded_solid _ _) (micros_solid _)

theorem uuidOut_solid (u : Uuid) : ∀ c ∈ uuidOut u, isSpace c = false := by
  have part {text : Text} (sub : ∀ c ∈ text, c ∈ hex u.1) : ∀ c ∈ text, isSpace c = false :=
    fun c inside => hex_solid u.1 c (sub c inside)
  have middle (n m : Nat) : ∀ c ∈ ((hex u.1).drop n).take m, isSpace c = false :=
    part fun c inside => List.mem_of_mem_drop (List.mem_of_mem_take inside)
  refine solid_append (part fun c inside => List.mem_of_mem_take inside) ?_
  refine solid_cons (by decide) (solid_append (middle 8 4) (solid_cons (by decide) ?_))
  refine solid_append (middle 12 4) (solid_cons (by decide) (solid_append (middle 16 4) ?_))
  exact solid_cons (by decide) (part fun c inside => List.mem_of_mem_drop inside)

/-- Python writes no blank around a number, a date or a time. -/
theorem survives_typed {kind : Kind} {v : Scalar} (typed : kind ∉ [.float, .text, .json])
    (has : kind.Has v) : Arrays.Survives t (encodeValue py oid v) := by
  cases has with
  | bool b => exact survives_solid (boolOut_solid b)
  | int n => exact survives_solid (intText_solid n)
  | float bits => exact absurd List.mem_cons_self typed
  | bytes data => exact survives_special (c := '\\') List.mem_cons_self (by decide)
  | date d => exact survives_solid (isoDate_solid d)
  | timestamp w =>
    refine survives_special (c := ' ') ?_ (by decide)
    exact List.mem_append_left _ (List.mem_append_right _ List.mem_cons_self)
  | time t' => exact survives_solid (clock_solid _ _ _ _)
  | interval d range =>
    rw [encodeValue, timedeltaOut]
    split
    · exact survives_solid (clock_solid _ _ _ _)
    · refine survives_special (c := ' ') ?_ (by decide)
      exact List.mem_append_right _ List.mem_cons_self
  | uuid u => exact survives_solid (uuidOut_solid u)
  | text v => exact absurd (by decide) typed
  | json v => exact absurd (by decide) typed

theorem typed_oid {kind : Kind} (found : KINDS.lookup oid = some kind) : oid < 2 ^ 32 := by
  have small : ∀ entry ∈ KINDS, entry.1 < 2 ^ 32 := by decide
  exact small _ (mem_kinds found)

/-- A date beside a NULL. -/
def someDates : List (Nested Entry) := [.leaf (some (.date leapDay)), .leaf none]

def someDatesBytes : Bytes :=
  [0, 0, 0, 1, 0, 0, 0, 1, 0, 0, 4, 0x3A, 0, 0, 0, 2, 0, 0, 0, 1, 0, 0, 0, 4, 0, 0, 0x22, 0x79,
    0xFF, 0xFF, 0xFF, 0xFF]

end Agreement

end PgMimic.Scalars
