import PgMimic.Stream
import PgMimic.Lib.Offsets
import PgMimic.Lib.Utf8

/-!
# Parse and Bind on the wire

`parse_parse` and `parse_bind` walk a payload with a running offset, and each count and
length they meet decides where the next field begins. Both are read as signed
integers. `makeParse` and `makeBind` are the layouts the protocol gives the two
messages; a payload is regular if no sign and no byte at its end is out of the layout.
-/

namespace PgMimic.Wire

open Offsets (Stands slice)

/-! ## The decoders -/

/-- A big-endian Int16, sign included. -/
def int16 (a b : UInt8) : Int :=
  let unsigned : Nat := a.toNat * 2 ^ 8 + b.toNat
  if unsigned < 2 ^ 15 then unsigned else (unsigned : Int) - 2 ^ 16

def unpackInt16 (data : List UInt8) (offset : Int) : Option Int :=
  match Offsets.unpackFrom 2 data offset with
  | some [a, b] => some (int16 a b)
  | _ => none

def unpackInt32 (data : List UInt8) (offset : Int) : Option Int :=
  match Offsets.unpackFrom 4 data offset with
  | some [a, b, c, d] => some (Stream.unpackInt32 a b c d)
  | _ => none

/-- `read_cstring`: none where there is no NUL, or the text is no UTF-8. -/
def readCstring (data : List UInt8) (offset : Int) : Option (List Char × Int) :=
  let start := Offsets.bound data.length offset
  match (data.drop start).idxOf? 0 with
  | none => none
  | some i => (Utf8.whole (slice data offset (start + i))).map fun text => (text, start + i + 1)

/-- `for _ in range(n)`, each round reading an item and moving the offset past it. -/
def readMany {α : Type} (read : Int → Option (α × Int)) : Nat → Int → Option (List α × Int)
  | 0, offset => some ([], offset)
  | n + 1, offset => do
    let (item, offset) ← read offset
    let (items, offset) ← readMany read n offset
    some (item :: items, offset)

/-- A count and so many items; a negative count is none. -/
def readCounted {α : Type} (read : Int → Option (α × Int)) (data : List UInt8) (offset : Int) :
    Option (List α × Int) := do
  let count ← unpackInt16 data offset
  readMany read count.toNat (offset + 2)

def readOid (data : List UInt8) (offset : Int) : Option (Int × Int) :=
  (unpackInt32 data offset).map fun oid => (oid, offset + 4)

def readFormatCode (data : List UInt8) (offset : Int) : Option (Int × Int) :=
  (unpackInt16 data offset).map fun code => (code, offset + 2)

/-- `_read_format_codes`. -/
def readFormatCodes (data : List UInt8) (offset : Int) : Option (List Int × Int) :=
  readCounted (readFormatCode data) data offset

/-- One parameter: its length, and its bytes unless the length is that of a NULL. -/
def readParam (data : List UInt8) (offset : Int) : Option (Option (List UInt8) × Int) := do
  let length ← unpackInt32 data offset
  let offset := offset + 4
  if length = -1 then some (none, offset)
  else some (some (slice data offset (offset + length)), offset + length)

structure ParsedParse where
  statementName : List Char
  sql : List Char
  paramOids : List Int
deriving DecidableEq

structure ParsedBind where
  portalName : List Char
  statementName : List Char
  paramFormatCodes : List Int
  params : List (Option (List UInt8))
  resultFormatCodes : List Int
deriving DecidableEq

def parseParse (payload : List UInt8) : Option ParsedParse := do
  let (statementName, offset) ← readCstring payload 0
  let (sql, offset) ← readCstring payload offset
  let (oids, _) ← readCounted (readOid payload) payload offset
  some ⟨statementName, sql, oids⟩

def parseBind (payload : List UInt8) : Option ParsedBind := do
  let (portalName, offset) ← readCstring payload 0
  let (statementName, offset) ← readCstring payload offset
  let (paramFormatCodes, offset) ← readFormatCodes payload offset
  let (params, offset) ← readCounted (readParam payload) payload offset
  let (resultFormatCodes, _) ← readFormatCodes payload offset
  some ⟨portalName, statementName, paramFormatCodes, params, resultFormatCodes⟩

/-! ## The layout -/

def cstring (text : List Char) : List UInt8 := Utf8.encode text ++ [0]

/-- The low sixteen bits, high byte first. -/
def packInt16 (value : Int) : List UInt8 :=
  [UInt8.ofNat ((value % 2 ^ 16).toNat / 2 ^ 8), UInt8.ofNat (value % 2 ^ 16).toNat]

/-- The low thirty-two bits, high byte first. -/
def packInt32 (value : Int) : List UInt8 := Stream.packInt32 (value % 2 ^ 32).toNat

/-- A 16-bit count and the items. -/
def counted {α : Type} (pack : α → List UInt8) (items : List α) : List UInt8 :=
  packInt16 items.length ++ items.flatMap pack

def packParam : Option (List UInt8) → List UInt8
  | none => packInt32 (-1)
  | some value => packInt32 value.length ++ value

def makeParse (m : ParsedParse) : List UInt8 :=
  cstring m.statementName ++ (cstring m.sql ++ counted packInt32 m.paramOids)

def makeBind (m : ParsedBind) : List UInt8 :=
  cstring m.portalName ++ (cstring m.statementName ++ (counted packInt16 m.paramFormatCodes ++
    (counted packParam m.params ++ counted packInt16 m.resultFormatCodes)))

def NulFree (text : List Char) : Prop := ∀ c ∈ text, c.val ≠ 0

theorem nulFree_iff (text : List Char) :
    NulFree text ↔ text.all (fun c => c.val.toNat != 0) = true := by
  simp only [NulFree, List.all_eq_true, bne_iff_ne, ne_eq]
  refine forall₂_congr fun c _ => not_congr ?_
  exact UInt32.toNat_inj.symm

instance (text : List Char) : Decidable (NulFree text) :=
  decidable_of_iff _ (nulFree_iff text).symm

/-- An OID is an unsigned 32-bit number. -/
structure ParsedParse.Conforms (m : ParsedParse) : Prop where
  statementName : NulFree m.statementName
  sql : NulFree m.sql
  count : m.paramOids.length ≤ 65535
  oids : ∀ oid ∈ m.paramOids, 0 ≤ oid ∧ oid < 2 ^ 32

/-- As many codes as a 16-bit count can say. -/
structure Codes (codes : List Int) : Prop where
  count : codes.length ≤ 65535
  int16 : ∀ code ∈ codes, -2 ^ 15 ≤ code ∧ code < 2 ^ 15

structure ParsedBind.Conforms (m : ParsedBind) : Prop where
  portalName : NulFree m.portalName
  statementName : NulFree m.statementName
  paramFormatCodes : Codes m.paramFormatCodes
  count : m.params.length ≤ 65535
  lengths : ∀ value, some value ∈ m.params → value.length < 2 ^ 31
  resultFormatCodes : Codes m.resultFormatCodes

/-! ## What is regular -/

def afterNul (bytes : List UInt8) : List UInt8 := (bytes.dropWhile (· ≠ 0)).drop 1

/-- So many items one after another, and then what is later. -/
def regularMany (one : (List UInt8 → Bool) → List UInt8 → Bool) (later : List UInt8 → Bool) :
    Nat → List UInt8 → Bool
  | 0 => later
  | n + 1 => one (regularMany one later n)

/-- No count is negative. Bytes that break off are not looked at. -/
def regularCounted (one : (List UInt8 → Bool) → List UInt8 → Bool) (later : List UInt8 → Bool) :
    List UInt8 → Bool
  | a :: b :: rest => 0 ≤ int16 a b && regularMany one later (int16 a b).toNat rest
  | _ => true

def regularCode (later : List UInt8 → Bool) (bytes : List UInt8) : Bool := later (bytes.drop 2)

/-- No length is below that of a NULL. -/
def regularParam (later : List UInt8 → Bool) : List UInt8 → Bool
  | a :: b :: c :: d :: rest =>
    -1 ≤ Stream.unpackInt32 a b c d && later (rest.drop (Stream.unpackInt32 a b c d).toNat)
  | _ => true

/-- Nothing follows the last code. -/
def regular (payload : List UInt8) : Bool :=
  regularCounted regularCode
    (regularCounted regularParam (regularCounted regularCode List.isEmpty))
    (afterNul (afterNul payload))

/-! ## Integers -/

/-- A value packed and read back is the value wrapped into the signed range. -/
theorem int16_packInt16 (value : Int) : ∃ a b, packInt16 value = [a, b] ∧
    int16 a b = if value % 2 ^ 16 < 2 ^ 15 then value % 2 ^ 16 else value % 2 ^ 16 - 2 ^ 16 := by
  refine ⟨_, _, rfl, ?_⟩
  have low : 0 ≤ value % 2 ^ 16 := Int.emod_nonneg value (by decide)
  have high : value % 2 ^ 16 < 2 ^ 16 := Int.emod_lt_of_pos value (by decide)
  simp only [int16, UInt8.toNat_ofNat']
  generalize value % 2 ^ 16 = v at low high
  split_ifs <;> omega

theorem unpackInt32_packInt32 (value : Int) : ∃ a b c d, packInt32 value = [a, b, c, d] ∧
    Stream.unpackInt32 a b c d =
      if value % 2 ^ 32 < 2 ^ 31 then value % 2 ^ 32 else value % 2 ^ 32 - 2 ^ 32 := by
  refine ⟨_, _, _, _, rfl, ?_⟩
  have low : 0 ≤ value % 2 ^ 32 := Int.emod_nonneg value (by decide)
  have high : value % 2 ^ 32 < 2 ^ 32 := Int.emod_lt_of_pos value (by decide)
  simp only [Stream.unpackInt32, UInt8.toNat_ofNat']
  generalize value % 2 ^ 32 = v at low high
  split_ifs <;> omega

/-- Two bytes read and packed again are the two bytes. -/
theorem packInt16_int16 (a b : UInt8) : packInt16 (int16 a b) = [a, b] := by
  have ha := a.toNat_lt
  have hb := b.toNat_lt
  have unsigned : (int16 a b % 2 ^ 16).toNat = a.toNat * 2 ^ 8 + b.toNat := by
    simp only [int16]
    split_ifs <;> omega
  simp only [packInt16, unsigned, List.cons.injEq, and_true]
  constructor
  · apply UInt8.toNat_inj.mp
    rw [UInt8.toNat_ofNat']
    omega
  · apply UInt8.toNat_inj.mp
    rw [UInt8.toNat_ofNat']
    omega

theorem packInt32_unpackInt32 (a b c d : UInt8) :
    packInt32 (Stream.unpackInt32 a b c d) = [a, b, c, d] := by
  have ha := a.toNat_lt
  have hb := b.toNat_lt
  have hc := c.toNat_lt
  have hd := d.toNat_lt
  have unsigned : (Stream.unpackInt32 a b c d % 2 ^ 32).toNat =
      a.toNat * 2 ^ 24 + b.toNat * 2 ^ 16 + c.toNat * 2 ^ 8 + d.toNat := by
    simp only [Stream.unpackInt32]
    split_ifs <;> omega
  simp only [packInt32, Stream.packInt32, unsigned, List.cons.injEq, and_true]
  refine ⟨?_, ?_, ?_, ?_⟩ <;>
  · apply UInt8.toNat_inj.mp
    rw [UInt8.toNat_ofNat']
    omega

theorem int16_range (a b : UInt8) : -2 ^ 15 ≤ int16 a b ∧ int16 a b < 2 ^ 15 := by
  have ha := a.toNat_lt
  have hb := b.toNat_lt
  simp only [int16]
  split_ifs <;> omega

theorem unpackInt32_range (a b c d : UInt8) :
    -2 ^ 31 ≤ Stream.unpackInt32 a b c d ∧ Stream.unpackInt32 a b c d < 2 ^ 31 := by
  have ha := a.toNat_lt
  have hb := b.toNat_lt
  have hc := c.toNat_lt
  have hd := d.toNat_lt
  simp only [Stream.unpackInt32]
  split_ifs <;> omega

section Reading

variable {data rest : List UInt8} {offset : Int}

theorem unpackInt16_of_stands {a b : UInt8} (h : Stands data offset (a :: b :: rest)) :
    unpackInt16 data offset = some (int16 a b) ∧ Stands data (offset + 2) rest := by
  constructor
  · rw [unpackInt16, h.unpackFrom 2]
    simp
  · have split : Stands data offset ([a, b] ++ rest) := h
    exact split.advance

theorem unpackInt32_of_stands {a b c d : UInt8}
    (h : Stands data offset (a :: b :: c :: d :: rest)) :
    unpackInt32 data offset = some (Stream.unpackInt32 a b c d) ∧
      Stands data (offset + 4) rest := by
  constructor
  · rw [unpackInt32, h.unpackFrom 4]
    simp
  · have split : Stands data offset ([a, b, c, d] ++ rest) := h
    exact split.advance

/-- An Int16 that is read is there. -/
theorem stands_of_unpackInt16 {value : Int} (h : Stands data offset rest)
    (read : unpackInt16 data offset = some value) :
    ∃ a b later, rest = a :: b :: later ∧ value = int16 a b ∧ Stands data (offset + 2) later := by
  match rest, h with
  | a :: b :: later, h =>
    obtain ⟨reads, moved⟩ := unpackInt16_of_stands h
    exact ⟨a, b, later, rfl, Option.some.inj (read.symm.trans reads), moved⟩
  | [_], h => simp [unpackInt16, h.unpackFrom 2] at read
  | [], h => simp [unpackInt16, h.unpackFrom 2] at read

theorem stands_of_unpackInt32 {value : Int} (h : Stands data offset rest)
    (read : unpackInt32 data offset = some value) :
    ∃ a b c d later, rest = a :: b :: c :: d :: later ∧ value = Stream.unpackInt32 a b c d ∧
      Stands data (offset + 4) later := by
  match rest, h with
  | a :: b :: c :: d :: later, h =>
    obtain ⟨reads, moved⟩ := unpackInt32_of_stands h
    exact ⟨a, b, c, d, later, rfl, Option.some.inj (read.symm.trans reads), moved⟩
  | [_, _, _], h => simp [unpackInt32, h.unpackFrom 4] at read
  | [_, _], h => simp [unpackInt32, h.unpackFrom 4] at read
  | [_], h => simp [unpackInt32, h.unpackFrom 4] at read
  | [], h => simp [unpackInt32, h.unpackFrom 4] at read

theorem unpackInt16_of_beyond (beyond : (data.length : Int) < offset) :
    unpackInt16 data offset = none := by
  rw [unpackInt16, Offsets.unpackFrom_of_beyond (by omega) (by omega)]

theorem unpackInt32_of_beyond (beyond : (data.length : Int) < offset) :
    unpackInt32 data offset = none := by
  rw [unpackInt32, Offsets.unpackFrom_of_beyond (by omega) (by omega)]

/-! ## Strings -/

theorem readCstring_of_stands {text : List Char} (free : NulFree text)
    (h : Stands data offset (cstring text ++ rest)) :
    ∃ offset', readCstring data offset = some (text, offset') ∧ Stands data offset' rest := by
  obtain ⟨front, rfl, rfl⟩ := h
  have absent : (0 : UInt8) ∉ Utf8.encode text := by
    intro member
    obtain ⟨c, inside, zero⟩ := Utf8.zero_mem_encode_iff.mp member
    exact free c inside zero
  have start : Offsets.bound (front ++ (cstring text ++ rest)).length front.length =
      front.length := by
    rw [Offsets.bound, if_neg (by omega), Int.toNat_natCast, List.length_append]
    omega
  have found : (cstring text ++ rest).idxOf? 0 = some (Utf8.encode text).length := by
    rw [cstring, List.append_assoc, List.singleton_append]
    exact Offsets.idxOf?_of_split absent
  have here : Stands (front ++ (cstring text ++ rest)) front.length (cstring text ++ rest) :=
    ⟨front, rfl, rfl⟩
  refine ⟨(front.length : Int) + (Utf8.encode text).length + 1, ?_, ?_⟩
  · simp only [readCstring, start, List.drop_left, found]
    rw [here.slice, cstring, List.append_assoc, List.take_left]
    rw [Utf8.whole_eq_some_iff.mpr rfl]
    rfl
  · have moved := here.advance
    rw [cstring, List.length_append, List.length_singleton, Int.natCast_add,
      ← Int.add_assoc] at moved
    exact moved

/-- A text that is read is there, with its NUL. -/
theorem stands_of_readCstring {text : List Char} {offset' : Int} (h : Stands data offset rest)
    (read : readCstring data offset = some (text, offset')) :
    ∃ later, rest = cstring text ++ later ∧ NulFree text ∧ Stands data offset' later := by
  obtain ⟨front, rfl, rfl⟩ := h
  have start : Offsets.bound (front ++ rest).length front.length = front.length := by
    rw [Offsets.bound, if_neg (by omega), Int.toNat_natCast, List.length_append]
    omega
  have here : Stands (front ++ rest) front.length rest := ⟨front, rfl, rfl⟩
  simp only [readCstring, start, List.drop_left] at read
  cases found : rest.idxOf? 0 with
  | none => simp [found] at read
  | some i =>
    simp only [found] at read
    obtain ⟨decodes, decoded, same⟩ := Option.map_eq_some_iff.mp read
    obtain ⟨rfl, rfl⟩ : decodes = text ∧ _ = offset' := Prod.mk.inj same
    rw [here.slice, Utf8.whole_eq_some_iff] at decoded
    obtain ⟨bytes, later, rfl, absent, rfl⟩ := Offsets.split_of_idxOf? found
    rw [List.take_left] at decoded
    subst decoded
    refine ⟨later, ?_, ?_, ?_⟩
    · rw [cstring, List.append_assoc, List.singleton_append]
    · intro c inside zero
      exact absent (Utf8.zero_mem_encode_iff.mpr ⟨c, inside, zero⟩)
    · have split : Stands (front ++ (Utf8.encode decodes ++ 0 :: later)) front.length
          ((Utf8.encode decodes ++ [0]) ++ later) := by
        rwa [List.append_assoc, List.singleton_append]
      have moved := split.advance
      rw [List.length_append, List.length_singleton, Int.natCast_add, ← Int.add_assoc] at moved
      exact moved

/-! ## Counted lists -/

section Counted

variable {α : Type} {read : Int → Option (α × Int)} {pack : α → List UInt8} {items : List α}

/-- Where an item stands, it is read and the offset moved past it. -/
def ReadsAt (data : List UInt8) (read : Int → Option (α × Int)) (pack : α → List UInt8)
    (item : α) : Prop :=
  ∀ offset rest, Stands data offset (pack item ++ rest) →
    ∃ offset', read offset = some (item, offset') ∧ Stands data offset' rest

theorem readMany_of_stands (each : ∀ item ∈ items, ReadsAt data read pack item)
    (h : Stands data offset (items.flatMap pack ++ rest)) :
    ∃ offset', readMany read items.length offset = some (items, offset') ∧
      Stands data offset' rest := by
  induction items generalizing offset with
  | nil => exact ⟨offset, rfl, h⟩
  | cons item items ih =>
    rw [List.flatMap_cons, List.append_assoc] at h
    obtain ⟨next, first, moved⟩ := each item (List.mem_cons_self ..) _ _ h
    obtain ⟨offset', others, stands⟩ :=
      ih (fun later member => each later (List.mem_cons_of_mem item member)) moved
    refine ⟨offset', ?_, stands⟩
    simp [readMany, first, others]

/-- The count is read as what it is if its highest bit is clear. -/
theorem readCounted_of_stands (each : ∀ item ∈ items, ReadsAt data read pack item)
    (few : items.length < 2 ^ 15) (h : Stands data offset (counted pack items ++ rest)) :
    ∃ offset', readCounted read data offset = some (items, offset') ∧
      Stands data offset' rest := by
  obtain ⟨a, b, packed, value⟩ := int16_packInt16 items.length
  have count : int16 a b = items.length := by
    rw [value]
    split_ifs <;> omega
  rw [counted, packed] at h
  obtain ⟨counts, moved⟩ := unpackInt16_of_stands h
  obtain ⟨offset', reads, stands⟩ := readMany_of_stands each moved
  refine ⟨offset', ?_, stands⟩
  simp [readCounted, counts, count, reads]

/-- With its highest bit set the count is negative, and nothing is read after it. -/
theorem readCounted_of_many (many : 2 ^ 15 ≤ items.length) (fits : items.length ≤ 65535)
    (h : Stands data offset (counted pack items ++ rest)) :
    readCounted read data offset = some ([], offset + 2) := by
  obtain ⟨a, b, packed, value⟩ := int16_packInt16 items.length
  have count : (int16 a b).toNat = 0 := by
    rw [value]
    split_ifs <;> omega
  rw [counted, packed] at h
  obtain ⟨counts, _⟩ := unpackInt16_of_stands h
  simp [readCounted, counts, count, readMany]

theorem few_of_readCounted (fits : items.length ≤ 65535)
    (h : Stands data offset (counted pack items ++ rest)) {offset' : Int}
    (reads : readCounted read data offset = some (items, offset')) : items.length < 2 ^ 15 := by
  by_contra many
  rw [readCounted_of_many (by omega) fits h] at reads
  obtain ⟨empty, _⟩ := Prod.mk.inj (Option.some.inj reads)
  apply many
  rw [← empty, List.length_nil]
  decide

/-- A reader gives back what it read, where that was regular; only a last slice can be
short, and then the offset has left the data. -/
structure GivesBack (data : List UInt8) (read : Int → Option (α × Int)) (pack : α → List UInt8)
    (one : (List UInt8 → Bool) → List UInt8 → Bool) (fine : α → Prop) : Prop where
  back : ∀ later offset rest item offset', Stands data offset rest → one later rest = true →
    read offset = some (item, offset') →
      (∃ rest', rest = pack item ++ rest' ∧ fine item ∧ later rest' = true ∧
        Stands data offset' rest') ∨ (data.length : Int) < offset'
  beyond : ∀ offset, (data.length : Int) < offset → read offset = none

variable {one : (List UInt8 → Bool) → List UInt8 → Bool} {fine : α → Prop}
  {later : List UInt8 → Bool} {offset' : Int}

theorem GivesBack.readMany (g : GivesBack data read pack one fine) {n : Nat}
    (h : Stands data offset rest) (ok : regularMany one later n rest = true)
    (reads : readMany read n offset = some (items, offset')) :
    (∃ rest', rest = items.flatMap pack ++ rest' ∧ items.length = n ∧
      (∀ item ∈ items, fine item) ∧ later rest' = true ∧ Stands data offset' rest') ∨
        (data.length : Int) < offset' := by
  induction n generalizing offset rest items with
  | zero =>
    obtain ⟨rfl, rfl⟩ := Prod.mk.inj (Option.some.inj reads)
    exact Or.inl ⟨rest, rfl, rfl, by simp, ok, h⟩
  | succ n ih =>
    simp only [Wire.readMany, Option.bind_eq_bind, Option.bind_eq_some_iff] at reads
    obtain ⟨⟨item, next⟩, first, ⟨others, last⟩, remaining, whole⟩ := reads
    obtain ⟨rfl, rfl⟩ := Prod.mk.inj (Option.some.inj whole)
    rcases g.back _ _ _ _ _ h ok first with ⟨rest', rfl, fits, ok', moved⟩ | beyond
    · rcases ih moved ok' remaining with ⟨final, rfl, count, all, done, stands⟩ | beyond
      · refine Or.inl ⟨final, ?_, ?_, ?_, done, stands⟩
        · rw [List.flatMap_cons, List.append_assoc]
        · rw [List.length_cons, count]
        · intro i member
          rcases List.mem_cons.mp member with rfl | old
          · exact fits
          · exact all i old
      · exact Or.inr beyond
    · cases n with
      | zero =>
        obtain ⟨_, rfl⟩ := Prod.mk.inj (Option.some.inj remaining)
        exact Or.inr beyond
      | succ n =>
        simp [Wire.readMany, g.beyond next beyond] at remaining

theorem GivesBack.readCounted (g : GivesBack data read pack one fine)
    (h : Stands data offset rest) (ok : regularCounted one later rest = true)
    (reads : readCounted read data offset = some (items, offset')) :
    (∃ rest', rest = counted pack items ++ rest' ∧ items.length < 2 ^ 15 ∧
      (∀ item ∈ items, fine item) ∧ later rest' = true ∧ Stands data offset' rest') ∨
        (data.length : Int) < offset' := by
  simp only [Wire.readCounted, Option.bind_eq_bind, Option.bind_eq_some_iff] at reads
  obtain ⟨count, counts, reads⟩ := reads
  obtain ⟨a, b, bytes, rfl, rfl, moved⟩ := stands_of_unpackInt16 h counts
  simp only [regularCounted, Bool.and_eq_true, decide_eq_true_eq] at ok
  obtain ⟨nonneg, ok⟩ := ok
  rcases g.readMany moved ok reads with ⟨rest', rfl, length, all, done, stands⟩ | beyond
  · have range := int16_range a b
    have same : (items.length : Int) = int16 a b := by omega
    refine Or.inl ⟨rest', ?_, by omega, all, done, stands⟩
    rw [counted, same, packInt16_int16]
    rfl
  · exact Or.inr beyond

theorem readCounted_of_beyond (beyond : (data.length : Int) < offset) :
    readCounted read data offset = none := by
  simp [readCounted, unpackInt16_of_beyond beyond]

end Counted

/-! ## The items -/

theorem readsAt_oid {oid : Int} (range : 0 ≤ oid ∧ oid < 2 ^ 31) :
    ReadsAt data (readOid data) packInt32 oid := by
  intro offset rest h
  obtain ⟨a, b, c, d, packed, value⟩ := unpackInt32_packInt32 oid
  have same : Stream.unpackInt32 a b c d = oid := by
    rw [value]
    split_ifs <;> omega
  rw [packed] at h
  obtain ⟨reads, moved⟩ := unpackInt32_of_stands h
  exact ⟨offset + 4, by rw [readOid, reads, same]; rfl, moved⟩

theorem readsAt_formatCode {code : Int} (range : -2 ^ 15 ≤ code ∧ code < 2 ^ 15) :
    ReadsAt data (readFormatCode data) packInt16 code := by
  intro offset rest h
  obtain ⟨a, b, packed, value⟩ := int16_packInt16 code
  have same : int16 a b = code := by
    rw [value]
    split_ifs <;> omega
  rw [packed] at h
  obtain ⟨reads, moved⟩ := unpackInt16_of_stands h
  exact ⟨offset + 2, by rw [readFormatCode, reads, same]; rfl, moved⟩

theorem readsAt_param {param : Option (List UInt8)}
    (fits : ∀ value, param = some value → value.length < 2 ^ 31) :
    ReadsAt data (readParam data) packParam param := by
  intro offset rest h
  cases param with
  | none =>
    obtain ⟨a, b, c, d, packed, length⟩ := unpackInt32_packInt32 (-1)
    have null : Stream.unpackInt32 a b c d = -1 := by
      rw [length]
      decide
    rw [packParam, packed] at h
    obtain ⟨reads, moved⟩ := unpackInt32_of_stands h
    refine ⟨offset + 4, ?_, moved⟩
    simp [readParam, reads, null]
  | some value =>
    have short := fits value rfl
    obtain ⟨a, b, c, d, packed, length⟩ := unpackInt32_packInt32 value.length
    have same : Stream.unpackInt32 a b c d = value.length := by
      rw [length]
      split_ifs <;> omega
    have present : ¬ ((value.length : Int) = -1) := by omega
    rw [packParam, packed, List.append_assoc] at h
    have here : Stands data offset (a :: b :: c :: d :: (value ++ rest)) := h
    obtain ⟨reads, moved⟩ := unpackInt32_of_stands here
    refine ⟨offset + 4 + value.length, ?_, moved.advance⟩
    simp only [readParam, reads, same, Option.bind_eq_bind, Option.bind_some, if_neg present]
    rw [moved.slice, List.take_left]

theorem givesBack_formatCode : GivesBack data (readFormatCode data) packInt16 regularCode
    fun code => -2 ^ 15 ≤ code ∧ code < 2 ^ 15 where
  back := by
    intro later offset rest code offset' h ok reads
    obtain ⟨value, unpacked, same⟩ := Option.map_eq_some_iff.mp reads
    obtain ⟨rfl, rfl⟩ := Prod.mk.inj same
    obtain ⟨a, b, bytes, rfl, rfl, moved⟩ := stands_of_unpackInt16 h unpacked
    exact Or.inl ⟨bytes, by rw [packInt16_int16]; rfl, int16_range a b, ok, moved⟩
  beyond := by
    intro offset beyond
    rw [readFormatCode, unpackInt16_of_beyond beyond]
    rfl

theorem givesBack_param : GivesBack data (readParam data) packParam regularParam
    fun param => ∀ value, param = some value → value.length < 2 ^ 31 where
  back := by
    intro later offset rest param offset' h ok reads
    simp only [readParam, Option.bind_eq_bind, Option.bind_eq_some_iff] at reads
    obtain ⟨length, unpacked, reads⟩ := reads
    obtain ⟨a, b, c, d, bytes, rfl, rfl, moved⟩ := stands_of_unpackInt32 h unpacked
    simp only [regularParam, Bool.and_eq_true, decide_eq_true_eq] at ok
    obtain ⟨atLeast, ok⟩ := ok
    have packed := packInt32_unpackInt32 a b c d
    have range := unpackInt32_range a b c d
    generalize Stream.unpackInt32 a b c d = length at reads atLeast ok packed range
    by_cases null : length = -1
    · subst null
      rw [if_pos rfl] at reads
      obtain ⟨rfl, rfl⟩ := Prod.mk.inj (Option.some.inj reads)
      exact Or.inl ⟨bytes, by rw [packParam, packed]; rfl, by simp, ok, moved⟩
    · rw [if_neg null] at reads
      obtain ⟨rfl, rfl⟩ := Prod.mk.inj (Option.some.inj reads)
      obtain ⟨n, rfl⟩ : ∃ n : Nat, length = n := ⟨length.toNat, by omega⟩
      rw [Int.toNat_natCast] at ok
      by_cases inside : n ≤ bytes.length
      · have width : (bytes.take n).length = n := List.length_take_of_le inside
        refine Or.inl ⟨bytes.drop n, ?_, ?_, ok, moved.advance_drop inside⟩
        · rw [moved.slice, packParam, width, packed, List.append_assoc, List.take_append_drop]
          rfl
        · intro value taken
          rw [moved.slice, Option.some.injEq] at taken
          rw [← taken, width]
          omega
      · refine Or.inr ?_
        obtain ⟨front, split, past⟩ := moved
        have total := congrArg List.length split
        rw [List.length_append] at total
        omega
  beyond := by
    intro offset beyond
    simp [readParam, unpackInt32_of_beyond beyond]

end Reading

/-! ## Layouts are regular -/

section Regular

variable {rest : List UInt8} {later : List UInt8 → Bool}

theorem afterNul_cstring {text : List Char} (free : NulFree text) :
    afterNul (cstring text ++ rest) = rest := by
  have nonzero : ∀ b ∈ Utf8.encode text, decide (b ≠ 0) = true := by
    intro b member
    apply decide_eq_true
    rintro rfl
    obtain ⟨c, inside, zero⟩ := Utf8.zero_mem_encode_iff.mp member
    exact free c inside zero
  rw [afterNul, cstring, List.append_assoc, List.singleton_append,
    List.dropWhile_append_of_pos nonzero]
  rfl

theorem regularCounted_counted {α : Type} {pack : α → List UInt8} {items : List α}
    {one : (List UInt8 → Bool) → List UInt8 → Bool} (few : items.length < 2 ^ 15)
    (each : ∀ item ∈ items, ∀ later rest, one later (pack item ++ rest) = later rest) :
    regularCounted one later (counted pack items ++ rest) = later rest := by
  have many : regularMany one later items.length (items.flatMap pack ++ rest) = later rest := by
    clear few
    induction items with
    | nil => rfl
    | cons item items ih =>
      rw [List.flatMap_cons, List.append_assoc, List.length_cons, regularMany,
        each item (List.mem_cons_self ..)]
      exact ih fun later member => each later (List.mem_cons_of_mem item member)
  obtain ⟨a, b, packed, value⟩ := int16_packInt16 items.length
  have count : int16 a b = items.length := by
    rw [value]
    split_ifs <;> omega
  rw [counted, packed]
  have nonneg : (0 : Int) ≤ items.length := by omega
  change (decide (0 ≤ int16 a b) && regularMany one later (int16 a b).toNat
    (items.flatMap pack ++ rest)) = later rest
  rw [count, decide_eq_true nonneg, Bool.true_and, Int.toNat_natCast, many]

theorem regularCode_packInt16 (code : Int) :
    regularCode later (packInt16 code ++ rest) = later rest := rfl

theorem regularParam_packParam {param : Option (List UInt8)}
    (fits : ∀ value, param = some value → value.length < 2 ^ 31) :
    regularParam later (packParam param ++ rest) = later rest := by
  cases param with
  | none =>
    obtain ⟨a, b, c, d, packed, length⟩ := unpackInt32_packInt32 (-1)
    have null : Stream.unpackInt32 a b c d = -1 := by
      rw [length]
      decide
    rw [packParam, packed]
    change (decide (-1 ≤ Stream.unpackInt32 a b c d) &&
      later (rest.drop (Stream.unpackInt32 a b c d).toNat)) = later rest
    rw [null]
    rfl
  | some value =>
    have short := fits value rfl
    obtain ⟨a, b, c, d, packed, length⟩ := unpackInt32_packInt32 value.length
    have same : Stream.unpackInt32 a b c d = value.length := by
      rw [length]
      split_ifs <;> omega
    have atLeast : (-1 : Int) ≤ value.length := by omega
    rw [packParam, packed, List.append_assoc]
    change (decide (-1 ≤ Stream.unpackInt32 a b c d) &&
      later ((value ++ rest).drop (Stream.unpackInt32 a b c d).toNat)) = later rest
    rw [same, decide_eq_true atLeast, Bool.true_and, Int.toNat_natCast, List.drop_left]

theorem ParsedBind.Conforms.lengths' {m : ParsedBind} (conforms : m.Conforms) :
    ∀ param ∈ m.params, ∀ value, param = some value → value.length < 2 ^ 31 := by
  rintro param member value rfl
  exact conforms.lengths value member

/-- The counts of a layout are positive where they fit fifteen bits. -/
theorem regular_makeBind {m : ParsedBind} (conforms : m.Conforms)
    (codes : m.paramFormatCodes.length < 2 ^ 15) (params : m.params.length < 2 ^ 15)
    (results : m.resultFormatCodes.length < 2 ^ 15) : regular (makeBind m) = true := by
  have plain : ∀ code : Int, ∀ later rest,
      regularCode later (packInt16 code ++ rest) = later rest :=
    fun code later rest => regularCode_packInt16 code
  rw [regular, makeBind, afterNul_cstring conforms.portalName,
    afterNul_cstring conforms.statementName, regularCounted_counted codes fun code _ => plain code,
    regularCounted_counted params fun param member later rest =>
      regularParam_packParam (conforms.lengths' param member)]
  have last := @regularCounted_counted [] List.isEmpty _ _ m.resultFormatCodes _ results
    fun code _ => plain code
  rw [List.append_nil] at last
  rw [last]
  rfl

end Regular

/-! ## The two messages -/

theorem forall_of_readMany {α : Type} {read : Int → Option (α × Int)} {fine : α → Prop}
    (each : ∀ offset item offset', read offset = some (item, offset') → fine item) {n : Nat}
    {offset offset' : Int} {items : List α}
    (reads : readMany read n offset = some (items, offset')) :
    ∀ item ∈ items, fine item := by
  induction n generalizing offset items with
  | zero =>
    obtain ⟨rfl, _⟩ := Prod.mk.inj (Option.some.inj reads)
    simp
  | succ n ih =>
    simp only [readMany, Option.bind_eq_bind, Option.bind_eq_some_iff] at reads
    obtain ⟨⟨item, next⟩, first, ⟨others, last⟩, remaining, whole⟩ := reads
    obtain ⟨rfl, rfl⟩ := Prod.mk.inj (Option.some.inj whole)
    intro i member
    rcases List.mem_cons.mp member with rfl | old
    · exact each _ _ _ first
    · exact ih remaining i old

theorem parseParse_makeParse_iff {m : ParsedParse} (conforms : m.Conforms) :
    parseParse (makeParse m) = some m ↔
      m.paramOids.length < 2 ^ 15 ∧ ∀ oid ∈ m.paramOids, oid < 2 ^ 31 := by
  obtain ⟨first, name, afterName⟩ :=
    readCstring_of_stands conforms.statementName (Offsets.stands_start (makeParse m))
  obtain ⟨second, sql, afterSql⟩ := readCstring_of_stands conforms.sql afterName
  have here : Stands (makeParse m) second (counted packInt32 m.paramOids ++ []) := by
    rwa [List.append_nil]
  constructor
  · intro parsed
    simp only [parseParse, name, sql, Option.bind_eq_bind, Option.bind_some,
      Option.bind_eq_some_iff] at parsed
    obtain ⟨⟨oids, last⟩, reads, made⟩ := parsed
    obtain rfl : oids = m.paramOids := congrArg ParsedParse.paramOids (Option.some.inj made)
    refine ⟨few_of_readCounted conforms.count here reads, ?_⟩
    simp only [readCounted, Option.bind_eq_bind, Option.bind_eq_some_iff] at reads
    obtain ⟨count, _, reads⟩ := reads
    refine forall_of_readMany ?_ reads
    intro offset oid offset' read
    obtain ⟨value, unpacked, same⟩ := Option.map_eq_some_iff.mp read
    obtain ⟨rfl, _⟩ := Prod.mk.inj same
    simp only [unpackInt32] at unpacked
    split at unpacked
    · obtain rfl := Option.some.inj unpacked
      exact (unpackInt32_range _ _ _ _).2
    · cases unpacked
  · rintro ⟨few, small⟩
    have each : ∀ oid ∈ m.paramOids,
        ReadsAt (makeParse m) (readOid (makeParse m)) packInt32 oid :=
      fun oid member => readsAt_oid ⟨(conforms.oids oid member).1, small oid member⟩
    obtain ⟨last, oids, _⟩ := readCounted_of_stands each few here
    simp [parseParse, name, sql, oids]

theorem parseBind_makeBind_iff {m : ParsedBind} (conforms : m.Conforms) :
    parseBind (makeBind m) = some m ↔ m.paramFormatCodes.length < 2 ^ 15 ∧
      m.params.length < 2 ^ 15 ∧ m.resultFormatCodes.length < 2 ^ 15 := by
  obtain ⟨first, portal, afterPortal⟩ :=
    readCstring_of_stands conforms.portalName (Offsets.stands_start (makeBind m))
  obtain ⟨second, name, afterName⟩ := readCstring_of_stands conforms.statementName afterPortal
  have codesAt {codes : List Int} (fit : Codes codes) : ∀ code ∈ codes,
      ReadsAt (makeBind m) (readFormatCode (makeBind m)) packInt16 code :=
    fun code member => readsAt_formatCode (fit.int16 code member)
  have paramsAt : ∀ param ∈ m.params,
      ReadsAt (makeBind m) (readParam (makeBind m)) packParam param :=
    fun param member => readsAt_param (conforms.lengths' param member)
  have ending {offset : Int}
      (h : Stands (makeBind m) offset (counted packInt16 m.resultFormatCodes)) :
      Stands (makeBind m) offset (counted packInt16 m.resultFormatCodes ++ []) := by
    rwa [List.append_nil]
  constructor
  · intro parsed
    simp only [parseBind, portal, name, Option.bind_eq_bind, Option.bind_some,
      Option.bind_eq_some_iff] at parsed
    obtain ⟨⟨codes, third⟩, readCodes, ⟨params, fourth⟩, readParams, ⟨results, last⟩, readResults,
      made⟩ := parsed
    obtain rfl : codes = m.paramFormatCodes :=
      congrArg ParsedBind.paramFormatCodes (Option.some.inj made)
    obtain rfl : params = m.params := congrArg ParsedBind.params (Option.some.inj made)
    obtain rfl : results = m.resultFormatCodes :=
      congrArg ParsedBind.resultFormatCodes (Option.some.inj made)
    -- each list that fits puts the next one where it is read
    have few := few_of_readCounted conforms.paramFormatCodes.count afterName readCodes
    obtain ⟨third', codes', afterCodes⟩ :=
      readCounted_of_stands (codesAt conforms.paramFormatCodes) few afterName
    obtain ⟨_, rfl⟩ := Prod.mk.inj (Option.some.inj (readCodes.symm.trans codes'))
    have few' := few_of_readCounted conforms.count afterCodes readParams
    obtain ⟨fourth', params', afterParams⟩ := readCounted_of_stands paramsAt few' afterCodes
    obtain ⟨_, rfl⟩ := Prod.mk.inj (Option.some.inj (readParams.symm.trans params'))
    exact ⟨few, few',
      few_of_readCounted conforms.resultFormatCodes.count (ending afterParams) readResults⟩
  · rintro ⟨few, few', few''⟩
    obtain ⟨third, codes, afterCodes⟩ :=
      readCounted_of_stands (codesAt conforms.paramFormatCodes) few afterName
    obtain ⟨fourth, params, afterParams⟩ := readCounted_of_stands paramsAt few' afterCodes
    obtain ⟨last, results, _⟩ :=
      readCounted_of_stands (codesAt conforms.resultFormatCodes) few'' (ending afterParams)
    simp only [parseBind, readFormatCodes, portal, name, codes, params, results,
      Option.bind_eq_bind, Option.bind_some]

/-- Codes are read from inside the payload. -/
theorem readFormatCodes_within {data : List UInt8} {codes : List Int} {offset offset' : Int}
    (reads : readFormatCodes data offset = some (codes, offset')) : offset' ≤ data.length := by
  have inside {offset value : Int} (unpacked : unpackInt16 data offset = some value) :
      offset + 2 ≤ data.length := by
    simp only [unpackInt16] at unpacked
    split at unpacked
    · rename_i read
      exact Offsets.within_of_unpackFrom read
    · cases unpacked
  simp only [readFormatCodes, readCounted, Option.bind_eq_bind, Option.bind_eq_some_iff] at reads
  obtain ⟨count, counts, reads⟩ := reads
  have start := inside counts
  clear counts
  generalize offset + 2 = position at start reads
  generalize count.toNat = n at reads
  induction n generalizing position codes with
  | zero =>
    obtain ⟨_, rfl⟩ := Prod.mk.inj (Option.some.inj reads)
    exact start
  | succ n ih =>
    simp only [readMany, Option.bind_eq_bind, Option.bind_eq_some_iff] at reads
    obtain ⟨⟨code, next⟩, first, ⟨others, last⟩, remaining, whole⟩ := reads
    obtain ⟨_, rfl⟩ := Prod.mk.inj (Option.some.inj whole)
    obtain ⟨value, unpacked, same⟩ := Option.map_eq_some_iff.mp first
    obtain ⟨_, rfl⟩ := Prod.mk.inj same
    exact ih _ (inside unpacked) remaining

/-- A regular payload that is accepted is the layout of what it was read as. -/
theorem makeBind_of_regular {payload : List UInt8} {m : ParsedBind}
    (parsed : parseBind payload = some m) (ok : regular payload = true) :
    m.Conforms ∧ payload = makeBind m := by
  simp only [parseBind, Option.bind_eq_bind, Option.bind_eq_some_iff] at parsed
  obtain ⟨⟨portalName, first⟩, portal, ⟨statementName, second⟩, name, ⟨codes, third⟩, readCodes,
    ⟨params, fourth⟩, readParams, ⟨results, last⟩, readResults, made⟩ := parsed
  obtain rfl := Option.some.inj made
  obtain ⟨afterPortal, split, portalFree, atName⟩ :=
    stands_of_readCstring (Offsets.stands_start payload) portal
  obtain ⟨afterName, rfl, nameFree, atCodes⟩ := stands_of_readCstring atName name
  rw [regular, split, afterNul_cstring portalFree, afterNul_cstring nameFree] at ok
  have there (offset : Int) (beyond : (payload.length : Int) < offset)
      {α : Type} {read : Int → Option (α × Int)} {r : List α × Int}
      (reads : readCounted read payload offset = some r) : False := by
    rw [readCounted_of_beyond beyond] at reads
    cases reads
  rcases givesBack_formatCode.readCounted atCodes ok readCodes with
    ⟨afterCodes, rfl, few, codesFine, ok, atParams⟩ | beyond
  case inr => exact False.elim (there third beyond readParams)
  rcases givesBack_param.readCounted atParams ok readParams with
    ⟨afterParams, rfl, few', paramsFine, ok, atResults⟩ | beyond
  case inr => exact False.elim (there fourth beyond readResults)
  rcases givesBack_formatCode.readCounted atResults ok readResults with
    ⟨afterResults, rfl, few'', resultsFine, ok, _⟩ | beyond
  · have nothing : afterResults = [] := List.isEmpty_iff.mp ok
    subst nothing
    have fits {n : Nat} (low : n < 2 ^ 15) : n ≤ 65535 := by omega
    refine ⟨⟨portalFree, nameFree, ⟨fits few, codesFine⟩, fits few', ?_,
      ⟨fits few'', resultsFine⟩⟩, ?_⟩
    · exact fun value member => paramsFine _ member value rfl
    · rw [split, List.append_nil]
      rfl
  · have inside : last ≤ payload.length := readFormatCodes_within readResults
    omega

/-- The decoders invert the layout where every count and every OID is read with its highest
bit clear, and what `parse_bind` accepts is a layout where it is regular. -/
theorem wire_layout_iff {parse : ParsedParse} {bind : ParsedBind} {payload : List UInt8}
    {accepted : ParsedBind} (parseConforms : parse.Conforms) (bindConforms : bind.Conforms)
    (parsed : parseBind payload = some accepted) :
    (parseParse (makeParse parse) = some parse ↔
      parse.paramOids.length < 2 ^ 15 ∧ ∀ oid ∈ parse.paramOids, oid < 2 ^ 31) ∧
    (parseBind (makeBind bind) = some bind ↔ bind.paramFormatCodes.length < 2 ^ 15 ∧
      bind.params.length < 2 ^ 15 ∧ bind.resultFormatCodes.length < 2 ^ 15) ∧
    ((accepted.Conforms ∧ payload = makeBind accepted) ↔ regular payload = true) := by
  refine ⟨parseParse_makeParse_iff parseConforms, parseBind_makeBind_iff bindConforms, ?_⟩
  constructor
  · rintro ⟨conforms, rfl⟩
    obtain ⟨codes, params, results⟩ := (parseBind_makeBind_iff conforms).mp parsed
    exact regular_makeBind conforms codes params results
  · exact makeBind_of_regular parsed

/-- A statement of one parameter, and values for two. -/
def oneParam : ParsedParse := ⟨['s'], ['f'], [23]⟩

def twoParams : ParsedBind := ⟨[], ['s'], [1], [none, some [0x2A]], [0]⟩

theorem oneParam_conforms : oneParam.Conforms where
  statementName := by decide
  sql := by decide
  count := by decide
  oids := by
    simp only [oneParam, List.mem_singleton, forall_eq]
    decide

theorem codes_singleton {code : Int} (range : -2 ^ 15 ≤ code ∧ code < 2 ^ 15) : Codes [code] where
  count := by simp
  int16 := by simpa using range

theorem twoParams_conforms : twoParams.Conforms where
  portalName := by decide
  statementName := by decide
  paramFormatCodes := codes_singleton (by decide)
  count := by decide
  lengths := by
    simp only [twoParams, List.mem_cons, Option.some.injEq, List.not_mem_nil, or_false]
    rintro value (h | rfl)
    · cases h
    · decide
  resultFormatCodes := codes_singleton (by decide)

/-- Both come back, and so does the payload of the second. -/
theorem twoParams_layout :
    (parseParse (makeParse oneParam) = some oneParam ↔
      oneParam.paramOids.length < 2 ^ 15 ∧ ∀ oid ∈ oneParam.paramOids, oid < 2 ^ 31) ∧
    (parseBind (makeBind twoParams) = some twoParams ↔
      twoParams.paramFormatCodes.length < 2 ^ 15 ∧ twoParams.params.length < 2 ^ 15 ∧
        twoParams.resultFormatCodes.length < 2 ^ 15) ∧
    ((twoParams.Conforms ∧ makeBind twoParams = makeBind twoParams) ↔
      regular (makeBind twoParams) = true) := by
  have parsed : parseBind (makeBind twoParams) = some twoParams :=
    (parseBind_makeBind_iff twoParams_conforms).mpr (by decide)
  exact wire_layout_iff oneParam_conforms twoParams_conforms parsed

/-- A parameter of length -2. The decoder steps back into the length it has just read. -/
def belowNull : List UInt8 := [0, 0, 0, 0, 0, 1, 0xFF, 0xFF, 0xFF, 0xFE]

/-- The count in front of a list, where it is a byte. -/
theorem length_of_packInt16 {n : Nat} (fits : n ≤ 65535) {b : UInt8}
    (packed : packInt16 n = [0, b]) : n = b.toNat := by
  simp only [packInt16, List.cons.injEq, and_true] at packed
  have high := congrArg UInt8.toNat packed.1
  have low := congrArg UInt8.toNat packed.2
  rw [UInt8.toNat_ofNat'] at high low
  change _ = 0 at high
  omega

/-- An OID above the signed range does not come back, and a length below -1 is read. -/
theorem belowNull_read :
    parseParse (makeParse ⟨[], [], [2 ^ 31]⟩) ≠ some ⟨[], [], [2 ^ 31]⟩ ∧
      parseBind belowNull = some ⟨[], [], [], [some []], []⟩ ∧
        ∀ m : ParsedBind, m.Conforms → belowNull ≠ makeBind m := by
  refine ⟨?_, by decide, ?_⟩
  · intro parsed
    have conforms : (⟨[], [], [2 ^ 31]⟩ : ParsedParse).Conforms :=
      ⟨by simp [NulFree], by simp [NulFree], by simp, by simp⟩
    have small := ((parseParse_makeParse_iff conforms).mp parsed).2 (2 ^ 31) (by simp)
    exact absurd small (by decide)
  · intro m conforms layout
    have bytes : afterNul (afterNul belowNull) = [0, 0, 0, 1, 0xFF, 0xFF, 0xFF, 0xFE] := by decide
    rw [layout, makeBind, afterNul_cstring conforms.portalName,
      afterNul_cstring conforms.statementName, counted, counted, counted] at bytes
    obtain ⟨a, b, packed, _⟩ := int16_packInt16 m.paramFormatCodes.length
    obtain ⟨a', b', packed', _⟩ := int16_packInt16 m.params.length
    simp only [packed, List.cons_append, List.nil_append, List.cons.injEq] at bytes
    obtain ⟨rfl, rfl, bytes⟩ := bytes
    have codes : m.paramFormatCodes = [] :=
      List.length_eq_zero_iff.mp (length_of_packInt16 conforms.paramFormatCodes.count packed)
    simp only [codes, packed', List.flatMap_nil, List.nil_append, List.cons_append,
      List.cons.injEq] at bytes
    obtain ⟨rfl, rfl, bytes⟩ := bytes
    obtain ⟨param, one⟩ := List.length_eq_one_iff.mp (length_of_packInt16 conforms.count packed')
    have total := congrArg List.length bytes
    have wide : 4 ≤ (packParam param).length := by
      cases param <;> simp [packParam, packInt32, Stream.packInt32]
    simp only [one, List.flatMap_singleton, List.length_append, List.length_cons,
      List.length_nil, packInt16] at total
    omega

end PgMimic.Wire
