import Mathlib.Algebra.Ring.Int.Defs
import PgMimic.CopyTokens
import PgMimic.Lib.Nested
import PgMimic.Lib.Outcomes
import PgMimic.WireLayout

/-!
# The array codecs

An array is a list of elements or of arrays of one shape. Its text is a braced list, in
which an element is quoted if the parser could read it in another way. Its binary format
carries the shape in front, one size for each dimension, and the elements in one row.
Elements are texts; the codecs of the other element types are left to a parameter.
-/

namespace PgMimic.Arrays

open Outcomes (bind_ok)
open PgMimic.Copy (Text)
open PgMimic.Endpoint (TextTables)

/-- A NULL element is None. -/
abbrev Element := Option Text

abbrev Item := Nested Element

/-- What the codecs raise. -/
inductive ArrayError where
  | valueError (text : String)
  | structError
  | unicodeError
  | recursionError
deriving DecidableEq

abbrev Result := Except ArrayError

def malformed {α : Type} (text : String) : Result α := .error (.valueError text)

/-! ## Shapes -/

section Shapes

variable {α : Type}

mutual

/-- `_check_rectangular`; the sizes below `depth` are `dims`. -/
def checkRectangular (depth : Nat) : List Nat → Nested α → Result Unit
  | [], .leaf _ => .ok ()
  | [], .list _ => malformed "array is deeper in some branches than others"
  | _ :: _, .leaf _ => malformed "array is shallower in some branches than others"
  | size :: dims, .list items =>
    if items.length ≠ size then
      malformed ("array is ragged: expected " ++ toString size ++ " elements at depth " ++
        toString depth ++ ", got " ++ toString items.length)
    else checkAll (depth + 1) dims items

def checkAll (depth : Nat) (dims : List Nat) : List (Nested α) → Result Unit
  | [] => .ok ()
  | item :: items => do
    checkRectangular depth dims item
    checkAll depth dims items

end

/-- `_dimensions`. -/
def dimensions (value : List (Nested α)) : Result (List Nat) :=
  if value.isEmpty then .ok []
  else do
    let dims := (Nested.list value).firstDimensions
    checkRectangular 0 dims (.list value)
    .ok dims

theorem checkAll_ok {depth : Nat} {dims : List Nat} {items : List (Nested α)} :
    checkAll depth dims items = .ok () ↔ ∀ x ∈ items, checkRectangular depth dims x = .ok () := by
  induction items with
  | nil => simp [checkAll]
  | cons x items ih =>
    rw [checkAll, bind_ok, List.forall_mem_cons, ← ih]
    exact ⟨fun ⟨_, first, others⟩ => ⟨first, others⟩, fun ⟨first, others⟩ => ⟨(), first, others⟩⟩

theorem checkRectangular_ok (dims : List Nat) : ∀ (depth : Nat) (x : Nested α),
    checkRectangular depth dims x = .ok () ↔ x.HasShape Nested.IsLeaf dims := by
  induction dims with
  | nil =>
    intro depth x
    cases x <;> simp [checkRectangular, malformed, Nested.HasShape, Nested.IsLeaf]
  | cons size dims ih =>
    intro depth x
    cases x with
    | leaf element => simp [checkRectangular, malformed, Nested.HasShape]
    | list items =>
      rw [checkRectangular, Nested.HasShape]
      by_cases same : items.length = size
      · rw [if_neg (by simp [same]), checkAll_ok]
        simp only [ih, same, true_and]
      · rw [if_pos same]
        simp [malformed, same]

/-- `_dimensions` accepts the rectangular lists. -/
theorem dimensions_ok {value : List (Nested α)} {dims : List Nat} :
    dimensions value = .ok dims ↔ (Nested.list value).Rectangular ∧
      dims = if value.isEmpty then [] else (Nested.list value).firstDimensions := by
  rw [dimensions]
  by_cases empty : value.isEmpty
  · rw [if_pos empty, if_pos empty]
    have none : value = [] := List.isEmpty_iff.mp empty
    have shape : (Nested.list value).Rectangular := ⟨[0], by simp [none, Nested.HasShape]⟩
    simp [shape, eq_comm]
  · rw [if_neg empty, if_neg empty, ← Nested.hasShape_firstDimensions, bind_ok]
    constructor
    · rintro ⟨_, checked, same⟩
      exact ⟨(checkRectangular_ok _ _ _).mp checked, (Except.ok.inj same).symm⟩
    · rintro ⟨shape, rfl⟩
      exact ⟨(), (checkRectangular_ok _ _ _).mpr shape, rfl⟩

/-- `list` of `_flatten`. -/
def flatten (value : Nested α) : List (Nested α) := value.leaves.map .leaf

/-- `range(0, n, step)`. -/
def starts (n : Nat) (step : Int) : List Int :=
  if 0 < step then (List.range ((n + step.toNat - 1) / step.toNat)).map fun (i : Nat) => i * step else []

/-- `_reshape`. -/
def reshape (flat : List (Nested α)) : List Int → Result (List (Nested α))
  | [] | [_] => .ok flat
  | _ :: size :: dims =>
    let step := (size :: dims).prod
    if step = 0 then malformed "range() arg 3 must not be zero"
    else (starts flat.length step).mapM fun i =>
      (reshape (Offsets.slice flat i (i + step)) (size :: dims)).map .list

end Shapes

/-! ## The binary format -/

/-- `ARRAY_OID`, of a scalar type and of its arrays. -/
def arrayOids : List (Nat × Nat) :=
  [(16, 1000), (17, 1001), (18, 1002), (19, 1003), (20, 1016), (21, 1005), (23, 1007), (25, 1009),
    (26, 1028), (700, 1021), (701, 1022), (1043, 1015), (1042, 1014), (1082, 1182), (1083, 1183),
    (1114, 1115), (1184, 1185), (1186, 1187), (1700, 1231), (2950, 2951), (114, 199), (3802, 3807)]

def isArrayOid (oid : Nat) : Bool := arrayOids.any fun entry => entry.2 = oid

/-- `TEXT`. -/
def textOid : Nat := 25

/-- `struct.pack("!i", n)`. -/
def packSize (n : Nat) : Result (List UInt8) :=
  if n < 2 ^ 31 then .ok (Wire.packInt32 n) else .error .structError

/-- One dimension: its size, and 1 for a lower bound. -/
def packDimension (size : Nat) : Result (List UInt8) := do
  .ok ((← packSize size) ++ Wire.packInt32 1)

/-- The length of an element and the element, of which -1 alone is a NULL. -/
def packElement : Element → Result (List UInt8)
  | none => .ok (Wire.packInt32 (-1))
  | some text => do
    let encoded := Utf8.encode text
    .ok ((← packSize encoded.length) ++ encoded)

/-- `encode_array_binary`, of `text[]`. -/
def encodeArrayBinary (value : List Item) : Result (List UInt8) := do
  let dims ← dimensions value
  let flat := if dims.isEmpty then [] else (Nested.list value).leaves
  let hasNull := flat.any Option.isNone
  let header ← packSize dims.length
  let sizes ← dims.mapM packDimension
  let elements ← flat.mapM packElement
  .ok (header ++ Wire.packInt32 (if hasNull then 1 else 0) ++ Wire.packInt32 textOid ++
    sizes.flatten ++ elements.flatten)

/-- `struct.unpack_from("!i", data, offset)`. -/
def unpackSize (data : List UInt8) (offset : Int) : Result Int :=
  match Wire.unpackInt32 data offset with
  | some value => .ok value
  | none => .error .structError

/-- A 32-bit integer without a sign. -/
def unsigned (value : Int) : Nat := (value % 2 ^ 32).toNat

/-- The sizes of so many dimensions, their lower bounds left out. -/
def readDimensions (data : List UInt8) : Nat → Int → Result (List Int × Int)
  | 0, offset => .ok ([], offset)
  | n + 1, offset => do
    let size ← unpackSize data offset
    let _ ← unpackSize data (offset + 4)
    let (sizes, offset) ← readDimensions data n (offset + 8)
    .ok (size :: sizes, offset)

/-- The elements: the offset moves by whatever length is read. -/
def readElements (decode : List UInt8 → Result Item) (data : List UInt8) :
    Nat → Int → Result (List Item)
  | 0, _ => .ok []
  | n + 1, offset => do
    let length ← unpackSize data offset
    let offset := offset + 4
    if length = -1 then
      let items ← readElements decode data n offset
      .ok (.leaf none :: items)
    else
      let item ← decode (Offsets.slice data offset (offset + length))
      let items ← readElements decode data n (offset + length)
      .ok (item :: items)

/-- The decoders of the scalar types that are not read as UTF-8. -/
abbrev Decoders := Nat → Option (List UInt8 → Result Text)

/-- `_decode_text`. -/
def decodeText (data : List UInt8) : Result Text :=
  match Utf8.whole data with
  | some text => .ok text
  | none => .error .unicodeError

/-- `_BINARY_DECODERS`. -/
def scalarDecoder (others : Decoders) (oid : Nat) : Option (List UInt8 → Result Text) :=
  if oid ∈ [25, 1043, 1042, 19] then some decodeText else others oid

def unsupportedOid (oid : Nat) : ArrayError :=
  .valueError ("binary format not supported for parameter OID " ++ toString oid)

/-- `decode_binary_param`, arrays read by `array`. -/
def decodeParam (others : Decoders) (array : List UInt8 → Result (List Item)) (oid : Nat)
    (data : List UInt8) : Result Item :=
  match scalarDecoder others oid with
  | some decode => (decode data).map fun text => .leaf (some text)
  | none =>
    if isArrayOid oid then (array data).map .list else .error (unsupportedOid oid)

/-- `decode_array_binary`. The elements of an array may be arrays again, up to the depth
the interpreter has. -/
def decodeArrayBinary (others : Decoders) : Nat → List UInt8 → Result (List Item)
  | 0, _ => .error .recursionError
  | depth + 1, data => do
    let ndim ← unpackSize data 0
    let _ ← unpackSize data 4
    let oid ← unpackSize data 8
    if ndim = 0 then .ok []
    else if ndim < 0 then malformed ("negative array dimension count " ++ toString ndim)
    else
      let (dims, offset) ← readDimensions data ndim.toNat 12
      let flat ← readElements (decodeParam others (decodeArrayBinary others depth) (unsigned oid)) data
        dims.prod.toNat offset
      reshape flat dims

/-! ## The text format -/

section Literals

variable (t : TextTables)

/-- `_NEEDS_QUOTING`. -/
def specials : List Char :=
  ['{', '}', ',', '"', '\\', ' ', '\t', '\n', '\r', '\x0b', '\x0c']

def isNull (text : Text) : Bool := t.upper text = "NULL".toList

/-- What `_format_element` puts in quotes. -/
def quotes (text : Text) : Bool :=
  text.isEmpty || isNull t text || text.any fun c => c ∈ specials

def escape (c : Char) : Text := if c = '\\' ∨ c = '"' then ['\\', c] else [c]

/-- `_format_element`. -/
def formatElement : Element → Text
  | none => "NULL".toList
  | some text => if quotes t text then '"' :: (text.flatMap escape ++ ['"']) else text

mutual

/-- `_format_nested`. -/
def formatNested : Item → Text
  | .leaf element => formatElement t element
  | .list items => '{' :: (formatItems items ++ ['}'])

/-- The items with commas between them. -/
def formatItems : List Item → Text
  | [] => []
  | [item] => formatNested item
  | item :: next :: items => formatNested item ++ ',' :: formatItems (next :: items)

end

/-- `format_array_literal`, of a list. -/
def formatArrayLiteral (value : List Item) : Result Text := do
  let _ ← dimensions value
  .ok (formatNested t (.list value))

/-- `_skip_space`. -/
def skipSpace (text : Text) : Text := text.dropWhile isSpace

/-- `_parse_quoted`, its opening quote read. -/
def parseQuoted : Text → Result (Text × Text)
  | [] => malformed "unterminated quoted element in array literal"
  | c :: rest =>
    if c = '\\' then
      match rest with
      | [] => malformed "array literal ends with a trailing backslash"
      | escaped :: rest => do
        let (chars, rest) ← parseQuoted rest
        .ok (escaped :: chars, rest)
    else if c = '"' then .ok ([], rest)
    else do
      let (chars, rest) ← parseQuoted rest
      .ok (c :: chars, rest)

/-- What ends an element without quotes. -/
def ends (c : Char) : Bool := c = ',' || c = '}'

/-- The token of `_parse_bare`. -/
def bareToken (text : Text) : Text := Endpoint.strip (text.takeWhile fun c => !ends c)

def unexpected (size : Nat) (c : Char) (rest : Text) : String :=
  "unexpected " ++ String.ofList (t.repr [c]) ++ " at position " ++
    toString (size - (rest.length + 1)) ++ " in array literal"

/-- The parsers of one body, by what they make of a token without quotes and of a text in
them. The index into the body is where the text still to be read begins. -/
structure Reader (α : Type) where
  bare : Text → α
  quoted : Text → α

section Parser

variable {α : Type} (size : Nat) (r : Reader α)

/-- Where the loop goes from an item. -/
def parseNext (item : Nested α) (text : Text) (loop : Text → Result (List (Nested α) × Text)) :
    Result (List (Nested α) × Text) :=
  match skipSpace text with
  | [] => malformed "unterminated array literal"
  | c :: rest =>
    if c = ',' then do
      let (items, rest) ← loop rest
      .ok (item :: items, rest)
    else if c = '}' then .ok ([item], rest)
    else malformed (unexpected t size c rest)

mutual

/-- `_parse_braced`, its opening brace read. -/
def parseBraced : Nat → Text → Result (List (Nested α) × Text)
  | 0, _ => .error .recursionError
  | fuel + 1, text =>
    match skipSpace text with
    | '}' :: rest => .ok ([], rest)
    | _ => parseItems fuel text

/-- The loop of `_parse_braced`. -/
def parseItems : Nat → Text → Result (List (Nested α) × Text)
  | 0, _ => .error .recursionError
  | fuel + 1, text =>
    match skipSpace text with
    | [] => malformed "unterminated array literal"
    | c :: rest =>
      if c = '{' then do
        let (items, rest) ← parseBraced fuel rest
        parseNext t size (.list items) rest (parseItems fuel)
      else if c = '"' then do
        let (text, rest) ← parseQuoted rest
        parseNext t size (.leaf (r.quoted text)) rest (parseItems fuel)
      else
        parseNext t size (.leaf (r.bare (bareToken (c :: rest))))
          ((c :: rest).dropWhile fun c => !ends c) (parseItems fuel)

end

/-- The bounds in front of a literal, up to and with the `=`, and what follows them. -/
def splitBounds (body : Text) : Option (Text × Text) :=
  if body.head? = some '[' then
    match body.dropWhile (· ≠ '=') with
    | [] => none
    | _ :: rest => some (body.takeWhile (· ≠ '='), rest.dropWhile isSpace)
  else some ([], body)

def malformedLiteral (text : Text) : String :=
  "malformed array literal: " ++ String.ofList (t.repr text)

/-- `parse_array_literal`. -/
def parseLiteral (text : Text) : Result (List (Nested α)) :=
  match splitBounds (Endpoint.strip text) with
  | none => malformed (malformedLiteral t text)
  | some (_, body) =>
    match body with
    | '{' :: rest => do
      let (value, rest) ← parseBraced t body.length r (2 * body.length) rest
      if Endpoint.strip rest = [] then .ok value
      else malformed ("trailing characters after array literal: " ++ String.ofList (t.repr text))
    | _ => malformed ("malformed array literal, expected '\x7b': " ++ String.ofList (t.repr text))

end Parser

/-- An element as a session sees it: only without quotes a NULL is one. -/
def elements : Reader Element where
  bare token := if isNull t token then none else some token
  quoted text := some text

def parseArrayLiteral (text : Text) : Result (List Item) := parseLiteral t (elements t) text

end Literals

end PgMimic.Arrays
