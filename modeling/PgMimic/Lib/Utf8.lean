import Mathlib.Data.List.Basic
import PgMimic.Lib.Splitter

/-!
# Incremental UTF-8 decoding

Bytes arrive in pieces cut anywhere. Each call decodes every character that is
complete and holds the bytes of one that may still become complete; bytes that
begin no character are refused at once, but for the first two of a surrogate, which
are held until the third. A valid text comes through any cut, and nothing about the
cut is visible in it (`decode_of_prefix`).
-/

namespace Utf8

/-- A text is a list of characters. -/
instance lawfulText : LawfulBEq (List Char) := inferInstance

def encode (text : List Char) : List UInt8 := text.flatMap String.utf8EncodeChar

/-- The character at the front, once all its bytes are there. -/
def next (bytes : List UInt8) : Option (Char × List UInt8) :=
  (bytes.toByteArray.utf8DecodeChar? 0).map fun c => (c, bytes.drop c.utf8Size)

/-- The range of a second byte depends on the first. -/
def second (a b : Nat) : Bool :=
  if a = 0xE0 then 0xA0 ≤ b && b ≤ 0xBF
  else if a = 0xED then 0x80 ≤ b && b ≤ 0x9F
  else if a = 0xF0 then 0x90 ≤ b && b ≤ 0xBF
  else if a = 0xF4 then 0x80 ≤ b && b ≤ 0x8F
  else 0x80 ≤ b && b ≤ 0xBF

/-- The first two bytes of a surrogate. -/
def surrogate (a b : Nat) : Bool := a = 0xED && 0xA0 ≤ b && b ≤ 0xBF

/-- Some character, or a surrogate, begins with these bytes and has more of them. -/
def truncated : List UInt8 → Bool
  | [] => true
  | [a] => 0xC2 ≤ a.toNat && a.toNat ≤ 0xF4
  | [a, b] => (0xE0 ≤ a.toNat && a.toNat ≤ 0xF4 && second a.toNat b.toNat) ||
      surrogate a.toNat b.toNat
  | [a, b, c] => 0xF0 ≤ a.toNat && a.toNat ≤ 0xF4 && second a.toNat b.toNat &&
      0x80 ≤ c.toNat && c.toNat ≤ 0xBF
  | _ => false

theorem next_eq_some_iff {bytes rest : List UInt8} {c : Char} :
    next bytes = some (c, rest) ↔ bytes = String.utf8EncodeChar c ++ rest := by
  constructor
  · intro h
    simp only [next, Option.map_eq_some_iff, Prod.mk.injEq] at h
    obtain ⟨c', hdecode, rfl, rfl⟩ := h
    obtain ⟨later, hlater⟩ := ByteArray.exists_of_utf8DecodeChar?_eq_some hdecode
    have bytes_eq : bytes = String.utf8EncodeChar c' ++ later.data.toList := by
      have data := congrArg (fun b => b.data.toList) hlater
      simpa using data
    have width : (String.utf8EncodeChar c').length = c'.utf8Size := String.length_utf8EncodeChar c'
    rw [bytes_eq, List.drop_left' width]
  · rintro rfl
    have decoded : (String.utf8EncodeChar c ++ rest).toByteArray.utf8DecodeChar? 0 = some c := by
      rw [List.toByteArray_append]
      exact ByteArray.utf8DecodeChar?_utf8EncodeChar_append
    simp only [next, decoded, Option.map_some]
    rw [List.drop_left' (String.length_utf8EncodeChar c)]

/-- Characters are taken off the front of what has arrived. -/
def characters : Splitter UInt8 Char where
  next := next
  shorter := by
    intro buffer c rest h
    have width := String.length_utf8EncodeChar c
    have positive := c.utf8Size_pos
    rw [next_eq_some_iff.mp h, List.length_append]
    omega
  stable := by
    intro buffer c rest more h
    rw [next_eq_some_iff.mp h, List.append_assoc]
    exact next_eq_some_iff.mpr rfl

/-- Every character is kept, and none is the last. -/
def collect : Splitter.Consumer Unit Char Char where
  accept := fun _ c => ((), [c])
  stopped := fun _ => false

/-- One call of the decoder: the characters completed and the bytes held, none where the
bytes are no UTF-8. -/
def decode (held data : List UInt8) : Option (List Char × List UInt8) :=
  let (text, _, rest) := characters.consume collect () (held ++ data)
  if truncated rest then some (text, rest) else none

theorem encode_cons (c : Char) (text : List Char) :
    encode (c :: text) = String.utf8EncodeChar c ++ encode text :=
  List.flatMap_cons

/-- The lead bytes of the shapes that have a second byte bound it from both sides. -/
theorem second_three {v : Nat} (low : 0x800 ≤ v) (high : v < 0x10000)
    (valid : v < 0xD800 ∨ 0xDFFF < v) :
    second (v / 4096 % 16 + 224) (v / 64 % 64 + 128) = true := by
  simp only [second]
  split_ifs <;> simp only [Bool.and_eq_true, decide_eq_true_eq] <;> omega

theorem second_four {v : Nat} (low : 0x10000 ≤ v) (high : v < 0x110000) :
    second (v / 262144 % 8 + 240) (v / 4096 % 64 + 128) = true := by
  simp only [second]
  split_ifs <;> simp only [Bool.and_eq_true, decide_eq_true_eq] <;> omega

/-- What is short of a whole list and begins it is empty, or begins with its head. -/
theorem proper_prefix_cons {α : Type} {l rest : List α} {a : α} (h : l <+: a :: rest)
    (proper : l.length < (a :: rest).length) :
    l = [] ∨ ∃ tail, l = a :: tail ∧ tail <+: rest ∧ tail.length < rest.length := by
  rcases List.prefix_cons_iff.mp h with rfl | ⟨tail, rfl, inside⟩
  · exact Or.inl rfl
  · exact Or.inr ⟨tail, rfl, inside, Nat.lt_of_succ_lt_succ proper⟩

/-- What a character begins with, short of all of it, is recognised. -/
theorem truncated_of_prefix {c : Char} {bytes : List UInt8} (h : bytes <+: String.utf8EncodeChar c)
    (proper : bytes.length < (String.utf8EncodeChar c).length) : truncated bytes = true := by
  have valid : c.val.toNat < 0xD800 ∨ (0xDFFF < c.val.toNat ∧ c.val.toNat < 0x110000) := c.valid
  simp only [String.utf8EncodeChar] at h proper
  generalize c.val.toNat = v at h proper valid
  have byte : ∀ {n : Nat}, n < 256 → (UInt8.ofNat n).toNat = n := fun hn => by
    rw [UInt8.toNat_ofNat', Nat.mod_eq_of_lt hn]
  split_ifs at h proper with one two three
  · obtain rfl | ⟨_, rfl, _, short⟩ := proper_prefix_cons h proper
    · rfl
    · exact absurd short (Nat.not_lt_zero _)
  · have lead := @byte (v / 64 % 32 + 192) (by omega)
    obtain rfl | ⟨_, rfl, h, proper⟩ := proper_prefix_cons h proper
    · rfl
    obtain rfl | ⟨_, rfl, _, short⟩ := proper_prefix_cons h proper
    · simp only [truncated, lead, Bool.and_eq_true, decide_eq_true_eq]
      omega
    · exact absurd short (Nat.not_lt_zero _)
  · have lead := @byte (v / 4096 % 16 + 224) (by omega)
    have tail := @byte (v / 64 % 64 + 128) (by omega)
    have second := @second_three v (by omega) (by omega) (by omega)
    obtain rfl | ⟨_, rfl, h, proper⟩ := proper_prefix_cons h proper
    · rfl
    obtain rfl | ⟨_, rfl, h, proper⟩ := proper_prefix_cons h proper
    · simp only [truncated, lead, Bool.and_eq_true, decide_eq_true_eq]
      omega
    obtain rfl | ⟨_, rfl, _, short⟩ := proper_prefix_cons h proper
    · rw [truncated, Bool.or_eq_true]
      apply Or.inl
      simp only [lead, tail, second, Bool.and_true, Bool.and_eq_true, decide_eq_true_eq]
      omega
    · exact absurd short (Nat.not_lt_zero _)
  · have lead := @byte (v / 262144 % 8 + 240) (by omega)
    have tail := @byte (v / 4096 % 64 + 128) (by omega)
    have last := @byte (v / 64 % 64 + 128) (by omega)
    have second := @second_four v (by omega) (by omega)
    obtain rfl | ⟨_, rfl, h, proper⟩ := proper_prefix_cons h proper
    · rfl
    obtain rfl | ⟨_, rfl, h, proper⟩ := proper_prefix_cons h proper
    · simp only [truncated, lead, Bool.and_eq_true, decide_eq_true_eq]
      omega
    obtain rfl | ⟨_, rfl, h, proper⟩ := proper_prefix_cons h proper
    · rw [truncated, Bool.or_eq_true]
      apply Or.inl
      simp only [lead, tail, second, Bool.and_true, Bool.and_eq_true, decide_eq_true_eq]
      omega
    obtain rfl | ⟨_, rfl, _, short⟩ := proper_prefix_cons h proper
    · simp only [truncated, lead, tail, last, second, Bool.and_true, Bool.and_eq_true,
        decide_eq_true_eq]
      omega
    · exact absurd short (Nat.not_lt_zero _)

/-- No character is a proper beginning of another. -/
theorem next_of_prefix {c : Char} {bytes : List UInt8} (h : bytes <+: String.utf8EncodeChar c)
    (proper : bytes.length < (String.utf8EncodeChar c).length) : next bytes = none := by
  cases found : next bytes with
  | none => rfl
  | some cut =>
    obtain ⟨d, rest⟩ := cut
    obtain ⟨more, hmore⟩ := h
    have front := next_eq_some_iff.mp found
    have whole : next (String.utf8EncodeChar c) = some (d, rest ++ more) :=
      next_eq_some_iff.mpr (by rw [← hmore, front, List.append_assoc])
    have itself : next (String.utf8EncodeChar c) = some (c, []) :=
      next_eq_some_iff.mpr (List.append_nil _).symm
    rw [whole, Option.some.injEq, Prod.mk.injEq] at itself
    obtain ⟨rfl, _⟩ := itself
    rw [front, List.length_append] at proper
    omega

/-- The characters completed by the bytes so far, and the bytes of none of them. -/
def completed (bytes : List UInt8) : List Char := (characters.consume collect () bytes).1

def left (bytes : List UInt8) : List UInt8 := (characters.consume collect () bytes).2.2

theorem consume_eq (bytes : List UInt8) :
    characters.consume collect () bytes = (completed bytes, (), left bytes) := rfl

theorem consume_encode_append (text : List Char) (rest : List UInt8) :
    characters.consume collect () (encode text ++ rest) =
      (text ++ completed rest, (), left rest) := by
  induction text with
  | nil => rfl
  | cons c text ih =>
    have front : characters.next (encode (c :: text) ++ rest) = some (c, encode text ++ rest) :=
      next_eq_some_iff.mpr (by rw [encode_cons, List.append_assoc])
    rw [Splitter.consume_of_next_some rfl front]
    change ([c] ++ (characters.consume collect () (encode text ++ rest)).1, _) = _
    rw [ih]
    rfl

/-- A valid text cut anywhere is characters and the truncated beginning of another. -/
theorem exists_truncated {text : List Char} {bytes : List UInt8} (h : bytes <+: encode text) :
    ∃ done rest, bytes = encode done ++ rest ∧ truncated rest = true ∧ next rest = none := by
  induction text generalizing bytes with
  | nil =>
    have empty : bytes = [] := List.prefix_nil.mp h
    exact ⟨[], [], by rw [empty]; rfl, rfl, characters.next_nil⟩
  | cons c text ih =>
    rw [encode_cons] at h
    by_cases proper : bytes.length < (String.utf8EncodeChar c).length
    · have front : bytes <+: String.utf8EncodeChar c :=
        List.prefix_of_prefix_length_le h (List.prefix_append _ _) (Nat.le_of_lt proper)
      exact ⟨[], bytes, rfl, truncated_of_prefix front proper, next_of_prefix front proper⟩
    · obtain ⟨later, rfl⟩ : String.utf8EncodeChar c <+: bytes :=
        List.prefix_of_prefix_length_le (List.prefix_append _ _) h (Nat.le_of_not_lt proper)
      obtain ⟨done, rest, rfl, htruncated, hnext⟩ := ih ((List.prefix_append_right_inj _).mp h)
      exact ⟨c :: done, rest, by rw [encode_cons, List.append_assoc], htruncated, hnext⟩

theorem truncated_left {text : List Char} {bytes : List UInt8} (h : bytes <+: encode text) :
    truncated (left bytes) = true := by
  obtain ⟨done, rest, rfl, htruncated, hnext⟩ := exists_truncated h
  have stays : left rest = rest := by
    have nothing : characters.consume collect () rest = ([], (), rest) :=
      Splitter.consume_of_next_none rfl hnext
    rw [left, nothing]
  have left_eq : left (encode done ++ rest) = left rest := by
    rw [left, consume_encode_append]
  rw [left_eq, stays]
  exact htruncated

/-- A piece of a valid text is decoded, and the characters so far and the bytes held are
those of everything that has arrived. -/
theorem decode_of_prefix {text : List Char} {before piece : List UInt8}
    (h : before ++ piece <+: encode text) :
    ∃ now, decode (left before) piece = some (now, left (before ++ piece)) ∧
      completed (before ++ piece) = completed before ++ now := by
  have law := @Splitter.consume_append _ _ _ _ characters collect () before piece
  rw [consume_eq, consume_eq, consume_eq, Prod.mk.injEq] at law
  obtain ⟨chars, rest⟩ := law
  have held : left (before ++ piece) = left (left before ++ piece) :=
    congrArg (fun state => state.2) rest
  refine ⟨completed (left before ++ piece), ?_, chars⟩
  have ok := truncated_left h
  rw [held] at ok
  rw [decode, consume_eq]
  simp only [ok, if_true, held]

theorem completed_encode (text : List Char) : completed (encode text) = text := by
  have whole := consume_encode_append text []
  rw [List.append_nil] at whole
  have nothing : completed [] = [] := rfl
  rw [completed, whole, nothing, List.append_nil]

theorem left_encode (text : List Char) : left (encode text) = [] := by
  have whole := consume_encode_append text []
  rw [List.append_nil] at whole
  rw [left, whole]
  rfl

/-- No byte is lost or made up. -/
theorem encode_completed (bytes : List UInt8) : encode (completed bytes) ++ left bytes = bytes := by
  induction hn : bytes.length using Nat.strongRecOn generalizing bytes with
  | ind n ih =>
    cases h : next bytes with
    | none =>
      have nothing : characters.consume collect () bytes = ([], (), bytes) :=
        Splitter.consume_of_next_none rfl h
      rw [completed, left, nothing]
      rfl
    | some cut =>
      obtain ⟨c, rest⟩ := cut
      have shorter : rest.length < n := hn ▸ characters.shorter h
      have front : characters.consume collect () bytes =
          (c :: completed rest, (), left rest) := by
        have one := @Splitter.consume_of_next_some _ _ _ _ characters collect () _ _ _ rfl h
        rw [one]
        rfl
      have split : bytes = String.utf8EncodeChar c ++ rest := next_eq_some_iff.mp h
      have later := ih rest.length shorter rest rfl
      rw [completed, left, front, encode_cons, List.append_assoc]
      rw [later, ← split]

/-- All the bytes at once, none where they are no UTF-8. -/
def whole (bytes : List UInt8) : Option (List Char) :=
  match decode [] bytes with
  | some (text, []) => some text
  | _ => none

theorem whole_eq_some_iff {bytes : List UInt8} {text : List Char} :
    whole bytes = some text ↔ bytes = encode text := by
  have reads : decode [] bytes =
      if truncated (left bytes) then some (completed bytes, left bytes) else none := by
    rw [decode, List.nil_append, consume_eq]
  constructor
  · intro h
    have split := encode_completed bytes
    rw [whole, reads] at h
    by_cases ok : truncated (left bytes) = true
    · rw [if_pos ok] at h
      cases rest : left bytes with
      | nil =>
        simp only [rest, Option.some.injEq] at h
        rw [rest, h, List.append_nil] at split
        exact split.symm
      | cons b rest' => simp [rest] at h
    · simp [ok] at h
  · rintro rfl
    have ok : truncated (left (encode text)) = true := by
      rw [left_encode]
      rfl
    rw [whole, reads, if_pos ok, left_encode, completed_encode]

/-- A zero byte is the character it is the code of, and no part of another. -/
theorem zero_mem_encodeChar_iff {c : Char} : 0 ∈ String.utf8EncodeChar c ↔ c.val = 0 := by
  have small : c.val = 0 ↔ c.val.toNat = 0 := UInt32.toNat_inj.symm
  rw [small]
  simp only [String.utf8EncodeChar]
  generalize c.val.toNat = v
  have byte {n : Nat} (low : n < 256) : (0 : UInt8) = UInt8.ofNat n ↔ n = 0 := by
    rw [← UInt8.toNat_inj, UInt8.toNat_ofNat', Nat.mod_eq_of_lt low]
    exact eq_comm
  split_ifs with one two three
  · rw [List.mem_singleton, byte (by omega)]
  · simp only [List.mem_cons, List.not_mem_nil, or_false]
    rw [byte (by omega), byte (by omega)]
    omega
  · simp only [List.mem_cons, List.not_mem_nil, or_false]
    rw [byte (by omega), byte (by omega), byte (by omega)]
    omega
  · simp only [List.mem_cons, List.not_mem_nil, or_false]
    rw [byte (by omega), byte (by omega), byte (by omega), byte (by omega)]
    omega

theorem zero_mem_encode_iff {text : List Char} : 0 ∈ encode text ↔ ∃ c ∈ text, c.val = 0 := by
  simp only [encode, List.mem_flatMap, zero_mem_encodeChar_iff]

/-! ## Bytes taken for characters -/

/-- Every byte read as the character with its code. -/
def latin1 (bytes : List UInt8) : List Char := bytes.map fun byte => Char.ofNat byte.toNat

theorem latin1_encodeChar {c : Char} (ascii : c.toNat < 128) :
    latin1 (String.utf8EncodeChar c) = [c] := by
  have low : c.val.toNat ≤ 0x7f := Nat.le_of_lt_succ ascii
  have byte : (UInt8.ofNat c.val.toNat).toNat = c.toNat := by
    rw [UInt8.toNat_ofNat', Nat.mod_eq_of_lt (by omega)]
    rfl
  simp only [latin1, String.utf8EncodeChar, if_pos low, List.map_singleton, byte, Char.ofNat_toNat]

/-- A text outside ASCII has more bytes than characters. -/
theorem length_encode_le_iff {text : List Char} :
    (encode text).length ≤ text.length ↔ ∀ c ∈ text, c.toNat < 128 := by
  have longer : ∀ text : List Char, text.length ≤ (encode text).length := by
    intro text
    induction text with
    | nil => exact Nat.le_refl _
    | cons c text ih =>
      have positive := c.utf8Size_pos
      rw [encode_cons, List.length_append, String.length_utf8EncodeChar, List.length_cons]
      omega
  induction text with
  | nil => simp [encode]
  | cons c text ih =>
    have one : c.utf8Size = 1 ↔ c.toNat < 128 := by
      rw [Char.utf8Size_eq_one_iff, UInt32.le_iff_toNat_le]
      exact Nat.lt_succ_iff.symm
    have positive := c.utf8Size_pos
    have rest := longer text
    rw [List.forall_mem_cons, ← one, encode_cons, List.length_append,
      String.length_utf8EncodeChar, List.length_cons]
    constructor
    · intro short
      exact ⟨by omega, ih.mp (by omega)⟩
    · rintro ⟨single, ascii⟩
      have short := ih.mpr ascii
      omega

/-- The bytes of a text are its characters exactly in ASCII. -/
theorem latin1_encode_iff {text : List Char} :
    latin1 (encode text) = text ↔ ∀ c ∈ text, c.toNat < 128 := by
  constructor
  · intro same
    have lengths := congrArg List.length same
    rw [latin1, List.length_map] at lengths
    exact length_encode_le_iff.mp (Nat.le_of_eq lengths)
  · intro ascii
    induction text with
    | nil => rfl
    | cons c text ih =>
      have first := latin1_encodeChar (ascii c List.mem_cons_self)
      have rest := ih fun d inside => ascii d (List.mem_cons_of_mem c inside)
      rw [latin1] at first rest
      rw [encode_cons, latin1, List.map_append, first, rest, List.singleton_append]

end Utf8
