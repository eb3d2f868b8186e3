import PgMimic.ArrayLiterals

/-!
# Array literals, written and read back

What `format_array_literal` writes is a literal of the grammar, its elements those of the
value but for the blanks of an element without quotes. The quotes are left out by a list of
six blanks, and the parser strips all that Unicode has.
-/

namespace PgMimic.Arrays

open Outcomes (bind_ok)
open PgMimic.Copy (Text)
open PgMimic.Endpoint (TextTables asciiTables)
open Trim

section Literals

variable (t : TextTables)

/-! ## Elements -/

/-- How an element is read after it has been formatted. -/
def written : Element → Leaf
  | none => .bare "NULL".toList
  | some text => if quotes t text then .quoted text else .bare (Endpoint.strip text)

/-- An element is read as it was if it stands in quotes or has nothing to strip. -/
def Survives : Element → Prop
  | none => True
  | some text => quotes t text = true ∨ Endpoint.strip text = text

theorem isNull_null : isNull t "NULL".toList = true := by
  have upper : t.upper "NULL".toList = "NULL".toList :=
    t.upper_ascii _ (by simp)
  rw [isNull, upper]
  exact decide_eq_true rfl

theorem quotes_escape (text : Text) : Quotes text (text.flatMap escape) := by
  induction text with
  | nil => exact .nil
  | cons c text ih =>
    by_cases special : c = '\\' ∨ c = '"'
    · rw [List.flatMap_cons, escape, if_pos special]
      exact .escaped c ih
    · rw [List.flatMap_cons, escape, if_neg special]
      obtain ⟨escape, quote⟩ := not_or.mp special
      exact .plain escape quote ih

/-- What is not put in quotes holds none of the characters the parser looks for. -/
theorem token_of_plain {text : Text} (plain : quotes t text = false) :
    IsToken (Endpoint.strip text) := by
  have none : ∀ c ∈ Endpoint.strip text, c ∉ specials := by
    intro c member special
    obtain ⟨before, after, split, _, _⟩ := trim_split (p := isSpace) text
    have inside : c ∈ text := by
      rw [split]
      exact List.mem_append_right _ (List.mem_append_left _ member)
    have found : (text.any fun c => decide (c ∈ specials)) = true :=
      List.any_eq_true.mpr ⟨c, inside, decide_eq_true special⟩
    simp [quotes, found] at plain
  refine ⟨solid_trim text, ?_, ?_, ?_⟩
  · intro c member
    by_contra ending
    simp only [ends, Bool.not_eq_false, Bool.or_eq_true, decide_eq_true_eq] at ending
    rcases ending with rfl | rfl <;> exact none _ member (by simp [specials])
  · intro first
    exact none '{' (List.mem_of_mem_head? first) (by simp [specials])
  · intro first
    exact none '"' (List.mem_of_mem_head? first) (by simp [specials])

theorem written_padded (element : Element) :
    Padded (written t element).Spells (formatElement t element) := by
  cases element with
  | none =>
    exact padded_of_spelled
      ⟨rfl, ⟨by constructor <;> simp <;> decide, by simp; decide, by simp, by simp⟩⟩
  | some text =>
    rw [written, formatElement]
    by_cases quoted : quotes t text
    · rw [if_pos quoted, if_pos quoted]
      exact padded_of_spelled ⟨_, rfl, quotes_escape text⟩
    · rw [if_neg quoted, if_neg quoted]
      obtain ⟨before, after, split, blank, blank'⟩ := trim_split (p := isSpace) text
      exact ⟨before, Endpoint.strip text, after, split, blank, blank', rfl,
        token_of_plain t (Bool.eq_false_iff.mpr quoted)⟩

theorem read_written_iff (element : Element) :
    (elements t).read (written t element) = element ↔ Survives t element := by
  cases element with
  | none => exact iff_of_true (if_pos (isNull_null t)) trivial
  | some text =>
    rw [written, Survives]
    by_cases quoted : quotes t text
    · simp [quoted, Reader.read, elements]
    · have named : isNull t text = false := by
        simp only [quotes, Bool.or_eq_true, not_or] at quoted
        exact Bool.eq_false_iff.mpr quoted.1.2
      rw [if_neg quoted]
      constructor
      · intro same
        simp only [Reader.read, elements] at same
        split at same
        · cases same
        · exact Or.inr (Option.some.inj same)
      · rintro (absurd' | same)
        · exact absurd absurd' quoted
        · simp [Reader.read, elements, same, named]

/-! ## Lists -/

mutual

/-- The spelling of a formatted value: blanks between two braces are no element. -/
def reread : Item → Nested Leaf
  | .leaf element => .leaf (written t element)
  | .list items => .list (if (formatItems t items).all isSpace then [] else rereadAll items)

def rereadAll : List Item → List (Nested Leaf)
  | [] => []
  | item :: items => reread item :: rereadAll items

end

theorem rereadAll_eq (items : List Item) : rereadAll t items = items.map (reread t) := by
  induction items with
  | nil => rfl
  | cons item items ih => rw [rereadAll, ih, List.map_cons]

theorem all_isSpace {text : Text} : text.all isSpace = true ↔ Blank isSpace text :=
  List.all_eq_true

theorem spellsItems_reread (item : Item) (items : List Item)
    (each : ∀ x ∈ item :: items, Padded (Spells (reread t x)) (formatNested t x)) :
    SpellsItems (rereadAll t (item :: items)) (formatItems t (item :: items)) := by
  induction items generalizing item with
  | nil => exact each item List.mem_cons_self
  | cons next items ih =>
    refine ⟨_, _, rfl, each item List.mem_cons_self, ?_⟩
    exact ih next fun x member => each x (List.mem_cons_of_mem _ member)

theorem spellsBody_reread (items : List Item)
    (each : ∀ x ∈ items, Padded (Spells (reread t x)) (formatNested t x)) :
    SpellsBody (if (formatItems t items).all isSpace then [] else rereadAll t items)
      (formatItems t items) := by
  by_cases blank : (formatItems t items).all isSpace
  · rw [if_pos blank]
    exact Or.inl ⟨rfl, all_isSpace.mp blank⟩
  · rw [if_neg blank]
    cases items with
    | nil => exact absurd rfl blank
    | cons item items =>
      exact Or.inr ⟨fun holds => blank (all_isSpace.mpr holds),
        spellsItems_reread t item items each⟩

theorem reread_padded (x : Item) : Padded (Spells (reread t x)) (formatNested t x) := by
  induction x using Nested.induct with
  | leaf element => exact written_padded t element
  | list items ih => exact padded_of_spelled ⟨_, rfl, spellsBody_reread t items ih⟩

/-- A formatted list is parsed as its spelling is read. -/
theorem parse_formatted (items : List Item) :
    parseArrayLiteral t (formatNested t (.list items)) =
      .ok (Nested.mapAll (elements t).read
        (if (formatItems t items).all isSpace then [] else rereadAll t items)) := by
  have spelled : Spelling (formatNested t (.list items)) []
      (if (formatItems t items).all isSpace then [] else rereadAll t items) :=
    ⟨[], _, padded_of_spelled rfl, Or.inl ⟨rfl, rfl⟩,
      spellsBody_reread t items fun x _ => reread_padded t x⟩
  exact parseLiteral_complete t (elements t) spelled

theorem formatNested_visible {x : Item} (survives : ∀ e ∈ x.leaves, Survives t e) :
    ¬Blank isSpace (formatNested t x) := by
  intro blank
  cases x with
  | list items => exact absurd (blank '{' List.mem_cons_self) (by decide)
  | leaf element =>
    cases element with
    | none => exact absurd (blank 'N' List.mem_cons_self) (by decide)
    | some text =>
      rw [formatNested, formatElement] at blank
      by_cases quoted : quotes t text
      · rw [if_pos quoted] at blank
        exact absurd (blank '"' List.mem_cons_self) (by decide)
      · rw [if_neg quoted] at blank
        have stripped : Endpoint.strip text = [] := trim_eq_nil_iff.mpr blank
        rcases survives (some text) List.mem_cons_self with quoted' | same
        · exact quoted quoted'
        · exact quoted (by rw [← same, stripped]; rfl)

/-- A blank list is formatted so only if it is empty, or its one element does not survive. -/
theorem blank_formatItems {items : List Item} (blank : Blank isSpace (formatItems t items)) :
    items = [] ∨ ∃ x ∈ items, ¬∀ e ∈ x.leaves, Survives t e := by
  match items with
  | [] => exact Or.inl rfl
  | [x] =>
    refine Or.inr ⟨x, List.mem_cons_self, fun survives => ?_⟩
    exact formatNested_visible t survives blank
  | x :: next :: items =>
    have comma : ',' ∈ formatItems t (x :: next :: items) :=
      List.mem_append_right _ List.mem_cons_self
    exact absurd (blank ',' comma) (by decide)

theorem read_reread_iff (x : Item) :
    (reread t x).map (elements t).read = x ↔ ∀ e ∈ x.leaves, Survives t e := by
  induction x using Nested.induct with
  | leaf element =>
    simp only [reread, Nested.map, Nested.leaves, List.mem_singleton, forall_eq, Nested.leaf.injEq]
    exact read_written_iff t element
  | list items ih =>
    have spread : (∀ e ∈ (Nested.list items).leaves, Survives t e) ↔
        ∀ x ∈ items, ∀ e ∈ x.leaves, Survives t e := by
      rw [Nested.leaves, Nested.leavesAll_eq]
      simp only [List.mem_flatMap]
      constructor
      · intro all x member e inside
        exact all e ⟨x, member, inside⟩
      · rintro all e ⟨x, member, inside⟩
        exact all x member e inside
    rw [spread, reread, Nested.map, Nested.mapAll_eq, Nested.list.injEq]
    by_cases blank : (formatItems t items).all isSpace
    · rw [if_pos blank, List.map_nil]
      rcases blank_formatItems t (all_isSpace.mp blank) with rfl | ⟨x, member, lost⟩
      · exact iff_of_true rfl (by simp)
      · refine iff_of_false ?_ fun all => lost (all x member)
        rintro rfl
        cases member
    · rw [if_neg blank, rereadAll_eq, List.map_map]
      refine Iff.trans ?_ (forall₂_congr fun x member => ih x member)
      refine Iff.trans ?_ List.map_inj_left
      rw [List.map_id']
      exact Iff.rfl

/-! ## The round trip -/

theorem formatArrayLiteral_ok {value : List Item} {text : Text} :
    formatArrayLiteral t value = .ok text ↔
      (Nested.list value).Rectangular ∧ text = formatNested t (.list value) := by
  rw [formatArrayLiteral, bind_ok]
  constructor
  · rintro ⟨dims, sized, same⟩
    exact ⟨(dimensions_ok.mp sized).1, (Except.ok.inj same).symm⟩
  · rintro ⟨shape, rfl⟩
    exact ⟨_, dimensions_ok.mpr ⟨shape, rfl⟩, rfl⟩

/-- What is parsed from a formatted value is the value if all its elements survive. -/
theorem parse_formatted_iff (value : List Item) :
    parseArrayLiteral t (formatNested t (.list value)) = .ok value ↔
      ∀ e ∈ (Nested.list value).leaves, Survives t e := by
  rw [parse_formatted, ← read_reread_iff, reread, Nested.map, Nested.list.injEq, Except.ok.injEq]

/-- A rectangular value comes back from its text exactly if every element that stands
there without quotes has no blank at its ends. -/
theorem literal_roundtrip_iff (value : List Item) (shape : (Nested.list value).Rectangular) :
    (formatArrayLiteral t value >>= parseArrayLiteral t) = .ok value ↔
      ∀ text, some text ∈ (Nested.list value).leaves →
        quotes t text = true ∨ Endpoint.strip text = text := by
  have format : formatArrayLiteral t value = .ok (formatNested t (.list value)) :=
    (formatArrayLiteral_ok t).mpr ⟨shape, rfl⟩
  rw [format]
  refine (parse_formatted_iff t value).trans ?_
  constructor
  · intro survives text member
    exact survives (some text) member
  · intro survives element member
    cases element with
    | none => trivial
    | some text => exact survives text member

end Literals

theorem roundtrip_of_nested :
    (formatArrayLiteral asciiTables [.list [.leaf none, .leaf (some "a b".toList)],
        .list [.leaf (some []), .leaf (some "null".toList)]] >>= parseArrayLiteral asciiTables) =
      .ok [.list [.leaf none, .leaf (some "a b".toList)],
        .list [.leaf (some []), .leaf (some "null".toList)]] := by
  refine (literal_roundtrip_iff asciiTables _ ⟨[2, 2], ?_⟩).mpr ?_
  · simp [Nested.HasShape, Nested.IsLeaf]
  · simp [Nested.leaves, Nested.leavesAll]
    decide

/-- A no-break space is stripped, and nothing puts it in quotes. -/
theorem noBreakSpace_lost :
    (Nested.list [Nested.leaf (some ['\u00a0', 'a'])]).Rectangular ∧
      (formatArrayLiteral asciiTables [.leaf (some ['\u00a0', 'a'])] >>=
        parseArrayLiteral asciiTables) ≠ .ok [.leaf (some ['\u00a0', 'a'])] := by
  refine ⟨⟨[1], by simp [Nested.HasShape, Nested.IsLeaf]⟩, fun same => ?_⟩
  have format : formatArrayLiteral asciiTables [.leaf (some ['\u00a0', 'a'])] =
      .ok ['{', '\u00a0', 'a', '}'] := by rfl
  have read :
      parseArrayLiteral asciiTables ['{', '\u00a0', 'a', '}'] = .ok [.leaf (some ['a'])] := by
    rfl
  rw [format] at same
  cases read.symm.trans same

end PgMimic.Arrays
