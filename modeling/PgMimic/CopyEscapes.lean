import Mathlib.Data.List.Forall2
import PgMimic.CopyText

/-!
# Fields spelled in byte escapes

`\xHH` and a three-digit octal escape name one byte each. `_unescape_text` reads one
character for each of them, so a field in which every byte of a text is escaped is read as
the bytes taken for characters. That is the text itself exactly where it is ASCII.
-/

namespace PgMimic.Copy

/-! ## Escapes of a byte -/

/-- A backslash, an `x` and two digits of either case. -/
def HexEscape (byte : UInt8) (escape : Text) : Prop :=
  ∃ high low, isHex high = true ∧ isHex low = true ∧
    digitValue high * 16 + digitValue low = byte.toNat ∧ escape = ['\\', 'x', high, low]

/-- A backslash and three octal digits. -/
def OctalEscape (byte : UInt8) (escape : Text) : Prop :=
  ∃ high middle low, isOctal high = true ∧ isOctal middle = true ∧ isOctal low = true ∧
    (digitValue high * 8 + digitValue middle) * 8 + digitValue low = byte.toNat ∧
      escape = ['\\', high, middle, low]

/-- The field has one escape for each byte of the text, all of the one kind or all of the other. -/
inductive Spells (text field : Text) : Prop where
  | hex (escapes : List Text) (each : List.Forall₂ HexEscape (Utf8.encode text) escapes)
      (whole : field = escapes.flatten)
  | octal (escapes : List Text) (each : List.Forall₂ OctalEscape (Utf8.encode text) escapes)
      (whole : field = escapes.flatten)

/-- The escape is read as the character with the code of the byte, whatever follows it. -/
def ReadAs (byte : UInt8) (escape : Text) : Prop :=
  ∀ tail, unescapeFrom 0 (escape ++ tail) = Char.ofNat byte.toNat :: unescapeFrom 0 tail

theorem HexEscape.readAs {byte : UInt8} {escape : Text} (h : HexEscape byte escape) :
    ReadAs byte escape := by
  obtain ⟨high, low, hexHigh, hexLow, value, rfl⟩ := h
  intro tail
  have marker : unescapeMarker 'x' (high :: low :: tail) = (Char.ofNat byte.toNat, 3) := by
    have known : textUnescape 'x' = none := rfl
    have digits : takeDigits (high :: low :: tail) isHex 2 = [high, low] := by
      simp [takeDigits, hexHigh, hexLow]
    have parsed : parseInt 16 [high, low] = byte.toNat := by simpa [parseInt] using value
    simp [unescapeMarker, known, digits, parsed]
  simp [unescapeFrom, marker]

/-- No octal digit is the letter of another escape. -/
theorem textUnescape_octal {digit : Char} (octal : isOctal digit = true) :
    textUnescape digit = none ∧ digit ≠ 'x' := by
  have other : ∀ letter : Char, isOctal letter = false → digit ≠ letter := by
    intro letter refused same
    rw [same, refused] at octal
    cases octal
  refine ⟨?_, other 'x' rfl⟩
  simp only [textUnescape, if_neg (other 'b' rfl), if_neg (other 'f' rfl), if_neg (other 'n' rfl),
    if_neg (other 'r' rfl), if_neg (other 't' rfl), if_neg (other 'v' rfl)]

theorem OctalEscape.readAs {byte : UInt8} {escape : Text} (h : OctalEscape byte escape) :
    ReadAs byte escape := by
  obtain ⟨high, middle, low, octalHigh, octalMiddle, octalLow, value, rfl⟩ := h
  intro tail
  have marker : unescapeMarker high (middle :: low :: tail) = (Char.ofNat byte.toNat, 3) := by
    obtain ⟨known, letter⟩ := textUnescape_octal octalHigh
    have digits : takeDigits (high :: middle :: low :: tail) isOctal 3 = [high, middle, low] := by
      simp [takeDigits, octalHigh, octalMiddle, octalLow]
    have parsed : parseInt 8 [high, middle, low] = byte.toNat := by simpa [parseInt] using value
    simp [unescapeMarker, known, letter, digits, octalHigh, parsed]
  simp [unescapeFrom, marker]

/-! ## The whole field -/

theorem unescapeFrom_flatten {bytes : List UInt8} {escapes : List Text}
    (each : List.Forall₂ ReadAs bytes escapes) :
    unescapeFrom 0 escapes.flatten = Utf8.latin1 bytes := by
  induction each with
  | nil => rfl
  | cons first _ ih =>
    rw [List.flatten_cons, first, ih]
    rfl

/-- Either way the field is read as the bytes of the text, each taken for a character. -/
theorem Spells.unescapeText {text field : Text} (spells : Spells text field) :
    unescapeText field = Utf8.latin1 (Utf8.encode text) := by
  rw [unescapeText_eq]
  cases spells with
  | hex escapes each whole =>
    rw [whole]
    exact unescapeFrom_flatten (each.imp fun _ _ => HexEscape.readAs)
  | octal escapes each whole =>
    rw [whole]
    exact unescapeFrom_flatten (each.imp fun _ _ => OctalEscape.readAs)

theorem getElem?_textFields {o : CopyOptions} {record field : Text} {i : Nat}
    (raw : (rawFields o.delimiter [] false record)[i]? = some field) :
    (textFields o record)[i]? =
      some (if field = o.nullString then none else some (unescapeText field)) := by
  rw [textFields, List.getElem?_map, raw]
  rfl

/-- A field of a text record that spells each byte of a text comes back as the text exactly if
that is ASCII, null strings apart. -/
theorem byteEscapes_iff {o : CopyOptions} {record field text : Text} {i : Nat}
    (raw : (rawFields o.delimiter [] false record)[i]? = some field)
    (spells : Spells text field) :
    (textFields o record)[i]? = some (some text) ↔
      (∀ c ∈ text, c.toNat < 128) ∧ field ≠ o.nullString := by
  rw [getElem?_textFields raw, Option.some.injEq, ← Utf8.latin1_encode_iff, ← spells.unescapeText]
  by_cases null : field = o.nullString
  · simp [null]
  · simp [null]

/-- `\101` behind the `\x41` of another field. -/
theorem capitalA_escaped :
    (textFields {} ['\\', 'x', '4', '1', '\t', '\\', '1', '0', '1'])[1]? = some (some ['A']) :=
  (byteEscapes_iff rfl (.octal [['\\', '1', '0', '1']]
    (.cons ⟨'1', '0', '1', rfl, rfl, rfl, rfl, rfl⟩ .nil) rfl)).mpr ⟨by simp, by decide⟩

/-- `\xc3\xa9` spells the two bytes of one letter and is read as two. -/
theorem accented_twice :
    Spells ['é'] ['\\', 'x', 'c', '3', '\\', 'x', 'a', '9'] ∧
      textFields {} ['\\', 'x', 'c', '3', '\\', 'x', 'a', '9'] = [some ['Ã', '©']] ∧
      textFields {} ['\\', 'x', 'c', '3', '\\', 'x', 'a', '9'] ≠ [some ['é']] := by
  refine ⟨.hex [['\\', 'x', 'c', '3'], ['\\', 'x', 'a', '9']] ?_ rfl, by decide, by decide⟩
  exact .cons ⟨'c', '3', rfl, rfl, rfl, rfl⟩ (.cons ⟨'a', '9', rfl, rfl, rfl, rfl⟩ .nil)

/-! ## Records of such fields -/

theorem digitValue_digitChar {digit : Nat} (small : digit < 16) :
    isHex (Nat.digitChar digit) = true ∧ digitValue (Nat.digitChar digit) = digit := by
  have all : ∀ digit : Fin 16, isHex (Nat.digitChar digit) = true ∧
      digitValue (Nat.digitChar digit) = digit := by decide
  exact all ⟨digit, small⟩

/-- Every text can be spelled. -/
theorem exists_spelling (text : Text) : ∃ field, Spells text field := by
  have one : ∀ byte : UInt8, ∃ escape, HexEscape byte escape := by
    intro byte
    have bound := byte.toNat_lt
    obtain ⟨hexHigh, high⟩ := @digitValue_digitChar (byte.toNat / 16) (by omega)
    obtain ⟨hexLow, low⟩ := @digitValue_digitChar (byte.toNat % 16) (by omega)
    exact ⟨_, _, _, hexHigh, hexLow, by rw [high, low]; omega, rfl⟩
  have all : ∀ bytes : List UInt8, ∃ escapes, List.Forall₂ HexEscape bytes escapes := by
    intro bytes
    induction bytes with
    | nil => exact ⟨[], .nil⟩
    | cons byte bytes ih =>
      obtain ⟨escape, first⟩ := one byte
      obtain ⟨escapes, rest⟩ := ih
      exact ⟨escape :: escapes, .cons first rest⟩
  obtain ⟨escapes, each⟩ := all (Utf8.encode text)
  exact ⟨_, .hex escapes each rfl⟩

section Records

variable {delimiter : Char} {bytes : List UInt8} {escapes : List Text}

theorem isHex_of_isOctal {digit : Char} (octal : isOctal digit = true) : isHex digit = true := by
  simp only [isOctal, isHex, Bool.and_eq_true, Bool.or_eq_true, decide_eq_true_eq] at octal ⊢
  have below : '7' ≤ '9' := by decide
  exact Or.inl (Or.inl ⟨octal.1, Char.le_trans octal.2 below⟩)

/-- A digit is no backslash and no delimiter that is none. -/
theorem scanned_digit (other : isHex delimiter = false) {digit : Char} (hex : isHex digit = true) :
    Scanned delimiter [digit] := by
  refine scanned_plain ?_ ?_
  · rintro rfl
    cases hex
  · rintro rfl
    rw [hex] at other
    cases other

theorem scanned_flatten (scanned : ∀ escape ∈ escapes, Scanned delimiter escape) :
    Scanned delimiter escapes.flatten := by
  induction escapes with
  | nil =>
    intro current tail
    simp
  | cons escape escapes ih =>
    have rest := ih fun later inside => scanned later (List.mem_cons_of_mem escape inside)
    exact (scanned escape List.mem_cons_self).append rest

theorem Spells.scanned {text field : Text} (other : isHex delimiter = false)
    (spells : Spells text field) : Scanned delimiter field := by
  have each_scanned : ∀ {R : UInt8 → Text → Prop} {bytes : List UInt8} {escapes : List Text},
      (∀ byte escape, R byte escape → Scanned delimiter escape) → List.Forall₂ R bytes escapes →
        ∀ escape ∈ escapes, Scanned delimiter escape := by
    intro R bytes escapes one each
    induction each with
    | nil => simp
    | cons first _ ih => exact List.forall_mem_cons.mpr ⟨one _ _ first, ih⟩
  cases spells with
  | hex escapes each whole =>
    rw [whole]
    refine scanned_flatten (each_scanned ?_ each)
    rintro byte escape ⟨high, low, hexHigh, hexLow, _, rfl⟩
    exact (scanned_marked delimiter 'x').append
      ((scanned_digit other hexHigh).append (scanned_digit other hexLow))
  | octal escapes each whole =>
    rw [whole]
    refine scanned_flatten (each_scanned ?_ each)
    rintro byte escape ⟨high, middle, low, octalHigh, octalMiddle, octalLow, _, rfl⟩
    exact (scanned_marked delimiter high).append
      ((scanned_digit other (isHex_of_isOctal octalMiddle)).append
        (scanned_digit other (isHex_of_isOctal octalLow)))

end Records

/-- A delimiter that is no digit splits a record of such fields where they end, and the texts
come back as long as they are ASCII. -/
theorem spelled_record {o : CopyOptions} {texts fields : List Text}
    (backslash : o.delimiter ≠ '\\') (digit : isHex o.delimiter = false) (some_field : fields ≠ [])
    (spelled : List.Forall₂ Spells texts fields) (values : o.nullString ∉ fields) :
    textFields o (join o.delimiter fields) =
      texts.map fun text => some (Utf8.latin1 (Utf8.encode text)) := by
  have scanned : ∀ field ∈ fields, Scanned o.delimiter field := by
    clear some_field values
    induction spelled with
    | nil => simp
    | cons first _ ih => exact List.forall_mem_cons.mpr ⟨first.scanned digit, ih⟩
  rw [textFields, rawFields_join backslash some_field scanned]
  clear some_field scanned
  induction spelled with
  | nil => rfl
  | cons first _ ih =>
    obtain ⟨other, rest⟩ := List.ne_and_not_mem_of_not_mem_cons values
    rw [List.map_cons, List.map_cons, if_neg (Ne.symm other), first.unescapeText, ih rest]

end PgMimic.Copy
