import PgMimic.CopySpelling
import PgMimic.LocalSettings
import PgMimic.SetPatterns

/-!
# The literal of a SET

A SET of a quoted literal stores what is left of the literal once every quote, of either
kind, has been stripped from its ends. That is the literal's value where it has no
apostrophe and no double quote at an end. A placeholder is refused by one spelling of
three.
-/

namespace PgMimic.SetPatterns

open Backtracking (Pattern)
open Backtracking.Pattern
open PgMimic.Copy (Text)
open PgMimic.Endpoint (TextTables doubled literal)
open PgMimic.StatementText (keyword foldCase)
open PgMimic.Patterns

/-- The parameters of type `string` that a client may set, but for `client_encoding`, which
takes one value. -/
def stringParameters : List String :=
  ["application_name", "backtrace_functions", "createrole_self_grant", "datestyle",
    "default_table_access_method", "default_tablespace", "default_text_search_config",
    "dynamic_library_path", "extension_control_path", "lc_messages", "lc_monetary", "lc_numeric",
    "lc_time", "local_preload_libraries", "restrict_nonsystem_relation_kind", "search_path",
    "session_preload_libraries", "temp_tablespaces", "timezone", "timezone_abbreviations",
    "wal_consistency_checking"]

/-! ## Spellings -/

/-- `TO` between white space, or `=` with any around it. -/
inductive Assigns : Text → Prop where
  | word {before word : Text} (gap : Gap before) (keyword : Keyword "TO" word) :
      Assigns (before ++ word)
  | equals {before behind : Text} (blank : ∀ c ∈ before, isSpace c = true)
      (blank' : ∀ c ∈ behind, isSpace c = true) : Assigns (before ++ '=' :: behind)

inductive SetForm where
  | setting
  | timeZone
  | schema
deriving DecidableEq

/-- `SET [SESSION] name TO value`, `SET TIME ZONE value` and `SET SCHEMA value`, with the
parameter that each assigns. -/
inductive SetSpelling (value : Text) : SetForm → String → Text → Prop where
  | setting {name : String} {set session raw op : Text} (keyword : Keyword "SET" set)
      (scope : session = [] ∨ Keyword "SESSION" session) (parameter : name ∈ stringParameters)
      (named : raw.map Char.toLower = name.toList) (assigns : Assigns op) :
      SetSpelling value .setting name (set ++ (session ++ (raw ++ (op ++ value))))
  | timeZone {set time zone : Text} (keyword : Keyword "SET" set) (time_ : Keyword "TIME" time)
      (zone_ : Keyword "ZONE" zone) :
      SetSpelling value .timeZone "timezone" (set ++ (time ++ (zone ++ value)))
  | schema {set schema : Text} (keyword : Keyword "SET" set) (schema_ : Keyword "SCHEMA" schema) :
      SetSpelling value .schema "search_path" (set ++ (schema ++ value))

/-- What the values below have in common: they begin with an apostrophe or a dollar sign,
and end in what is no end of a statement. -/
structure Valued (value : Text) : Prop where
  first : value.head? = some '\'' ∨ value.head? = some '$'
  last : ∀ c ∈ value.getLast?, isSpace c = false ∧ c ≠ ';'
  line : ∀ c ∈ value, anyChar c = true

theorem valued_literal {s : Text} (line : '\n' ∉ s) : Valued (literal s) where
  first := Or.inl rfl
  last := by
    rw [literal, ← List.cons_append, List.getLast?_concat]
    intro c member
    obtain rfl := Option.some.inj member
    exact ⟨rfl, by decide⟩
  line := by
    intro c member
    simp only [literal, doubled, List.mem_cons, List.mem_append, List.mem_flatMap,
      List.not_mem_nil, or_false] at member
    rcases member with rfl | ⟨d, inside, same⟩ | rfl
    · rfl
    · have one : c = d ∨ c = '\'' := by
        by_cases quote : d = '\''
        · rw [if_pos quote] at same
          exact Or.inr (by simpa using same)
        · rw [if_neg quote] at same
          exact Or.inl (List.mem_singleton.mp same)
      rcases one with rfl | rfl
      · exact decide_eq_true fun newline => line (newline ▸ inside)
      · rfl
    · rfl

theorem isDigit_facts {c : Char} (digit : c.isDigit = true) :
    isSpace c = false ∧ c ≠ ';' ∧ c ≠ '\n' := by
  have range := isDigit_range digit
  refine ⟨isSpace_of_printed (by omega), ?_, ?_⟩
  · rintro rfl
    exact absurd range.2 (by decide)
  · rintro rfl
    exact absurd range.1 (by decide)

theorem valued_placeholder {digits : Text} (digit : ∀ c ∈ digits, c.isDigit = true) :
    Valued ('$' :: digits) where
  first := Or.inr rfl
  last := by
    intro c member
    have inside := List.mem_of_getLast? member
    rcases List.mem_cons.mp inside with rfl | inside
    · exact ⟨rfl, by decide⟩
    · exact ⟨(isDigit_facts (digit c inside)).1, (isDigit_facts (digit c inside)).2.1⟩
  line := by
    intro c member
    rcases List.mem_cons.mp member with rfl | inside
    · rfl
    · exact decide_eq_true (isDigit_facts (digit c inside)).2.2

namespace Valued

variable {value : Text}

theorem begun (valued : Valued value) : Begun value := by
  intro c member
  rcases valued.first with first | first
  · rw [first] at member
    obtain rfl := Option.some.inj member
    rfl
  · rw [first] at member
    obtain rfl := Option.some.inj member
    rfl

theorem nonempty (valued : Valued value) : value ≠ [] := by
  rintro rfl
  rcases valued.first with first | first <;> cases first

/-- What a reluctant pattern takes of it is the whole, with what stands in front. -/
theorem of_mem_reluctant (valued : Valued value) {before v rest : Text}
    (h : (v, rest) ∈ (reluctant anyChar).ways (before ++ value)) : v = before ++ value := by
  have last : ∀ c ∈ (before ++ value).getLast?, isSpace c = false ∧ c ≠ ';' := by
    intro c member
    rw [List.getLast?_append_of_ne_nil _ valued.nonempty] at member
    exact valued.last c member
  exact ((Patterns.mem_reluctant last).mp h).1

theorem mem_reluctant (valued : Valued value) : (value, []) ∈ (reluctant anyChar).ways value :=
  (Patterns.mem_reluctant valued.last).mpr ⟨rfl, rfl, valued.nonempty, valued.line⟩

end Valued

/-! ## Names -/

section Names

/-- Small letters and underscores, and no word of the grammar. -/
theorem stringParameters_facts : stringParameters.all (fun name =>
    name.toList.all (fun c => decide (c.toNat < 128) && (c.isLower || c = '_')) &&
    name.toList ≠ [] &&
    decide (name.toList.map Char.toUpper ∉
      ["SESSION", "LOCAL", "TIME", "SCHEMA", "CHARACTERISTICS"].map String.toList)) = true := by
  decide

/-- None of them is left to the session. -/
theorem stringParameters_own :
    stringParameters.all (fun name => decide (name ∉ passedThroughSettings)) = true := by
  decide

theorem ascii_of_toLower {c : Char} (ascii : c.toLower.toNat < 128) : c.toNat < 128 := by
  by_contra large
  have kept : c.toLower = c := by
    refine dif_neg fun upper => ?_
    simp only [UInt32.le_iff_toNat_le] at upper
    have : c.toNat ≤ 90 := upper.2
    omega
  rw [kept] at ascii
  exact large ascii

theorem foldCase_of_toLower {c : Char} (ascii : c.toLower.toNat < 128) :
    foldCase c = c.toLower.toUpper := by
  have every : ∀ n < 128, foldCase (Char.ofNat n) = (Char.ofNat n).toLower.toUpper := by decide
  rw [← Char.ofNat_toNat c]
  exact every c.toNat (ascii_of_toLower ascii)

theorem letter_facts {c : Char} (ascii : c.toLower.toNat < 128)
    (letter : c.toLower.isLower = true ∨ c.toLower = '_') :
    (c.isAlphanum || c = '_') = true ∧ isSpace c = false ∧ c ≠ '"' ∧ c ≠ '=' ∧ c ≠ '.' := by
  have every : ∀ n < 128,
      (Char.ofNat n).toLower.isLower = true ∨ (Char.ofNat n).toLower = '_' →
      ((Char.ofNat n).isAlphanum || Char.ofNat n = '_') = true ∧ isSpace (Char.ofNat n) = false ∧
        Char.ofNat n ≠ '"' ∧ Char.ofNat n ≠ '=' ∧ Char.ofNat n ≠ '.' := by decide
  rw [← Char.ofNat_toNat c] at letter ⊢
  exact every c.toNat (ascii_of_toLower ascii) letter

theorem name_letters {name : String} {raw : Text} (parameter : name ∈ stringParameters)
    (named : raw.map Char.toLower = name.toList) :
    ∀ c ∈ raw, c.toLower.toNat < 128 ∧ (c.toLower.isLower = true ∨ c.toLower = '_') := by
  have facts := List.all_eq_true.mp stringParameters_facts name parameter
  simp only [Bool.and_eq_true, decide_eq_true_eq] at facts
  intro c member
  have inside : c.toLower ∈ name.toList := by
    rw [← named]
    exact List.mem_map_of_mem member
  simpa using List.all_eq_true.mp facts.1.1 _ inside

theorem ascii_of_name {name : String} {raw : Text} (parameter : name ∈ stringParameters)
    (named : raw.map Char.toLower = name.toList) : ∀ c ∈ raw, c.toNat < 128 :=
  fun c member => ascii_of_toLower (name_letters parameter named c member).1

/-- What the patterns need to know of a parameter's name. -/
structure NameText (t : TextTables) (raw : Text) : Prop where
  nonempty : raw ≠ []
  isWord : ∀ c ∈ raw, t.isWord c = true
  solid : ∀ c ∈ raw, isSpace c = false
  signs : ∀ c ∈ raw, c ≠ '"' ∧ c ≠ '=' ∧ c ≠ '.'
  reserved : raw.map foldCase ∉
    ["SESSION", "LOCAL", "TIME", "SCHEMA", "CHARACTERISTICS"].map String.toList

theorem nameText {t : TextTables} (tables : WordTables t) {name : String} {raw : Text}
    (parameter : name ∈ stringParameters) (named : raw.map Char.toLower = name.toList) :
    NameText t raw := by
  have facts := List.all_eq_true.mp stringParameters_facts name parameter
  simp only [Bool.and_eq_true, decide_eq_true_eq] at facts
  obtain ⟨⟨_, nonempty⟩, reserved⟩ := facts
  have lower := name_letters parameter named
  have folded : raw.map foldCase = name.toList.map Char.toUpper := by
    rw [← named, List.map_map]
    exact List.map_congr_left fun c member => foldCase_of_toLower (lower c member).1
  have letter := fun c member => letter_facts (lower c member).1 (lower c member).2
  refine ⟨?_, ?_, ?_, ?_, ?_⟩
  · rintro rfl
    exact nonempty named.symm
  · intro c member
    rw [tables.ascii c (ascii_of_toLower (lower c member).1)]
    exact (letter c member).1
  · exact fun c member => (letter c member).2.1
  · exact fun c member => (letter c member).2.2
  · rw [folded]
    exact reserved

end Names

/-! ## What the patterns take of a spelling -/

section Captures

variable {t : TextTables} {value : Text}

theorem refuses_scope : Refuses isSpace scope :=
  (refuses_word ⟨_, _, rfl, rfl⟩).bind.either (refuses_word ⟨_, _, rfl, rfl⟩).bind

theorem ways_scope_of_none {text : Text} (session : keyword "SESSION".toList text = none)
    (localScope : keyword "LOCAL".toList text = none) : scope.ways text = [] := by
  change _ ++ _ = []
  rw [bind_eq_nil (ways_word_of_none session), bind_eq_nil (ways_word_of_none localScope)]
  rfl

/-- A scope, if there is one, and a word. -/
theorem refuses_scoped {γ : Type} {f : Unit → Pattern Char γ} {letters : String}
    (lettered : Lettered letters) :
    Refuses isSpace (optional scope >>= fun _ => word letters >>= f) :=
  refuses_scope.optional_bind (refuses_word lettered).bind

/-- `^\s*SET\s+`, in front of what begins with no white space. -/
theorem ways_set_bind {γ : Type} {f : Unit → Pattern Char γ} {set text : Text}
    (k : Keyword "SET" set) (begun : Begun text) (refuses : Refuses isSpace (f ())) :
    (spaces >>= fun _ => word "SET" >>= fun _ => gap >>= f).ways (set ++ text) =
      (f ()).ways text := by
  have skipped :
      (spaces >>= fun _ => word "SET" >>= fun _ => gap >>= f).ways ([] ++ (set ++ text)) =
      (word "SET" >>= fun _ => gap >>= f).ways (set ++ text) :=
    ways_spaces_bind (by simp) (k.begun ⟨_, _, rfl, rfl⟩) (refuses_word ⟨_, _, rfl, rfl⟩).bind
  rw [List.nil_append] at skipped
  rw [skipped, k.ways_bind begun refuses]

theorem ways_assigned (valued : Valued value) : (assigned t).ways value = [] := by
  obtain ⟨c, rest, rfl⟩ := List.exists_cons_of_ne_nil valued.nonempty
  have first : c = '\'' ∨ c = '$' := by
    rcases valued.first with first | first
    · exact Or.inl (Option.some.inj first)
    · exact Or.inr (Option.some.inj first)
  have word : keyword "TO".toList (c :: rest) = none := by
    rcases first with rfl | rfl <;> rfl
  have sign : '=' ∉ (c :: rest).head? := by
    rcases first with rfl | rfl <;> simp
  change _ ++ _ = []
  rw [bind_eq_nil (ways_word_of_none word), ways_sign_of_head sign]
  rfl

/-- Behind the last word of the two spellings without `TO`. -/
theorem mem_behind_gap (valued : Valued value) {behind v rest : Text}
    (h : (v, rest) ∈ (gap >>= fun _ => notAhead (assigned t) >>= fun _ =>
      reluctant anyChar).ways (behind ++ value)) (g : Gap behind) :
    ∃ before, (∀ c ∈ before, isSpace c = true) ∧ v = before ++ value := by
  obtain ⟨_, _, first, later⟩ := mem_bind.mp h
  obtain ⟨_, _, ahead, last⟩ := mem_bind.mp later
  obtain ⟨run, blank, split⟩ := mem_gap.mp first
  obtain ⟨before, rfl, rfl⟩ := blank_split blank.2 valued.begun split
  obtain ⟨_, rfl⟩ := mem_notAhead.mp ahead
  exact ⟨before, fun c member => g.2 c (List.mem_append_right run member),
    valued.of_mem_reluctant last⟩

theorem behind_gap (valued : Valued value) {behind : Text} (g : Gap behind) :
    (value, []) ∈ (gap >>= fun _ => notAhead (assigned t) >>= fun _ =>
      reluctant anyChar).ways (behind ++ value) := by
  refine mem_bind.mpr ⟨(), value, mem_gap.mpr ⟨behind, g, rfl⟩, ?_⟩
  exact mem_bind.mpr ⟨(), value, mem_notAhead.mpr ⟨ways_assigned valued, rfl⟩, valued.mem_reluctant⟩

theorem capture_behind_gap (valued : Valued value) {letters : String} {last : Text}
    (k : Keyword letters last) : ∃ before, (∀ c ∈ before, isSpace c = true) ∧
      (word letters >>= fun _ => gap >>= fun _ => notAhead (assigned t) >>= fun _ =>
        reluctant anyChar).capture (last ++ value) = some (before ++ value) := by
  obtain ⟨read, behind, reads, g, rfl⟩ := k
  obtain ⟨v, found, before, blank, same⟩ := capture_satisfies
    (P := fun v => ∃ before, (∀ c ∈ before, isSpace c = true) ∧ v = before ++ value)
    (behind_gap (t := t) valued g) (fun v rest member => mem_behind_gap valued member g)
  refine ⟨before, blank, ?_⟩
  rw [List.append_assoc, capture_congr (ways_word_bind reads), found, same]

theorem capture_setTimeZone (valued : Valued value) {set time zone : Text}
    (set_ : Keyword "SET" set) (time_ : Keyword "TIME" time) (zone_ : Keyword "ZONE" zone) :
    ∃ before, (∀ c ∈ before, isSpace c = true) ∧
      (setTimeZone t).capture (set ++ (time ++ (zone ++ value))) = some (before ++ value) := by
  have unscoped : scope.ways (time ++ (zone ++ value)) = [] :=
    ways_scope_of_none (time_.none (by decide) (by decide)) (time_.none (by decide) (by decide))
  obtain ⟨before, blank, found⟩ := capture_behind_gap (t := t) valued zone_
  refine ⟨before, blank, ?_⟩
  rw [← found, setTimeZone]
  apply capture_congr
  rw [ways_set_bind set_, optional_bind_of_nil unscoped, time_.ways_bind]
  · exact zone_.begun ⟨_, _, rfl, rfl⟩
  · exact (refuses_word ⟨_, _, rfl, rfl⟩).bind
  · exact time_.begun ⟨_, _, rfl, rfl⟩
  · exact refuses_scoped ⟨_, _, rfl, rfl⟩

theorem capture_setSchema (valued : Valued value) {set schema : Text}
    (set_ : Keyword "SET" set) (schema_ : Keyword "SCHEMA" schema) :
    (setTimeZone t).capture (set ++ (schema ++ value)) = none ∧
    ∃ before, (∀ c ∈ before, isSpace c = true) ∧
      (setSchema t).capture (set ++ (schema ++ value)) = some (before ++ value) := by
  have unscoped : scope.ways (schema ++ value) = [] :=
    ways_scope_of_none (schema_.none (by decide) (by decide)) (schema_.none (by decide) (by decide))
  have begun : Begun (schema ++ value) := schema_.begun ⟨_, _, rfl, rfl⟩
  constructor
  · apply capture_eq_none
    rw [setTimeZone, ways_set_bind set_ begun, optional_bind_of_nil unscoped]
    · exact bind_eq_nil (ways_word_of_none (schema_.none (by decide) (by decide)))
    · exact refuses_scoped ⟨_, _, rfl, rfl⟩
  · obtain ⟨before, blank, found⟩ := capture_behind_gap (t := t) valued schema_
    refine ⟨before, blank, ?_⟩
    rw [← found, setSchema]
    apply capture_congr
    rw [ways_set_bind set_ begun, optional_bind_of_nil unscoped]
    exact refuses_scoped ⟨_, _, rfl, rfl⟩

end Captures

section Settings

variable {t : TextTables} {value raw op set session : Text}

theorem Assigns.head (assigns : Assigns op) :
    ∀ c ∈ (op ++ value).head?, isSpace c = true ∨ c = '=' := by
  intro c member
  cases assigns with
  | @word before _ gap _ =>
    obtain ⟨a, rest, rfl⟩ := List.exists_cons_of_ne_nil gap.1
    obtain rfl := Option.some.inj member
    exact Or.inl (gap.2 a (by simp))
  | @equals before behind blank _ =>
    cases before with
    | nil => exact Or.inr (Option.some.inj member).symm
    | cons a rest =>
      obtain rfl := Option.some.inj member
      exact Or.inl (blank a (by simp))

/-- A parameter's name is no word of the grammar. -/
theorem ways_reserved {γ : Type} {f : Unit → Pattern Char γ} {letters : String}
    (name : NameText t raw) (assigns : Assigns op)
    (reserved : letters ∈ ["SESSION", "LOCAL", "TIME", "SCHEMA", "CHARACTERISTICS"])
    (plain : letters.toList.all (fun c => !isSpace c && c ≠ '=') = true) :
    (word letters >>= fun _ => gap >>= f).ways (raw ++ (op ++ value)) = [] := by
  refine ways_word_gap name.solid ?_ ?_
  · intro same
    exact name.reserved (same ▸ List.mem_map_of_mem reserved)
  · intro c member inside
    have none := List.all_eq_true.mp plain _ inside
    rcases assigns.head c member with space | rfl
    · rw [foldCase_of_isSpace space, space] at none
      cases none
    · cases none

theorem ways_scope_name (name : NameText t raw) (assigns : Assigns op) :
    scope.ways (raw ++ (op ++ value)) = [] := by
  change _ ++ _ = []
  rw [ways_reserved name assigns (by simp) rfl, ways_reserved name assigns (by simp) rfl]
  rfl

theorem ways_scope_session {γ : Type} {f : SetScope → Pattern Char γ} {rest : Text}
    (session_ : Keyword "SESSION" session) (begun : Begun rest)
    (refuses : Refuses isSpace (f .session)) :
    (scope >>= f).ways (session ++ rest) = (f .session).ways rest := by
  have other : (word "LOCAL").ways (session ++ rest) = [] :=
    ways_word_of_none (session_.none (by decide) (by decide))
  rw [scope, ways_either_bind, bind_eq_nil (bind_eq_nil other), List.append_nil]
  simp only [bind_assoc, pure_bind]
  exact session_.ways_bind begun refuses

theorem NameText.begun (name : NameText t raw) (rest : Text) : Begun (raw ++ rest) := by
  obtain ⟨c, raw, rfl⟩ := List.exists_cons_of_ne_nil name.nonempty
  exact begun_cons (name.solid c (by simp)) (raw ++ rest)

/-- What begins with another word than SESSION and a name does not match behind SET. -/
theorem ways_other_word {γ : Type} {f : Unit → Pattern Char γ} {letters : String}
    (name : NameText t raw) (assigns : Assigns op)
    (scope_ : session = [] ∨ Keyword "SESSION" session)
    (reserved : letters ∈ ["SESSION", "LOCAL", "TIME", "SCHEMA", "CHARACTERISTICS"])
    (plain : letters.toList.all (fun c => !isSpace c && c ≠ '=') = true)
    (lettered : Lettered letters) (shorter : ¬letters.toList <+: "SESSION".toList)
    (longer : ¬"SESSION".toList <+: letters.toList) :
    (optional scope >>= fun _ => word letters >>= fun _ => gap >>= f).ways
      (session ++ (raw ++ (op ++ value))) = [] := by
  rcases scope_ with rfl | session_
  · rw [List.nil_append, optional_bind_of_nil (ways_scope_name name assigns)]
    exact ways_reserved name assigns reserved plain
  · have other : (word letters).ways (session ++ (raw ++ (op ++ value))) = [] :=
      ways_word_of_none (session_.none shorter longer)
    rw [ways_optional_bind, ways_scope_session session_ (name.begun _) (refuses_word lettered).bind,
      ways_reserved name assigns reserved plain, bind_eq_nil other]
    rfl

theorem captures_none (name : NameText t raw) (assigns : Assigns op) (set_ : Keyword "SET" set)
    (scope_ : session = [] ∨ Keyword "SESSION" session) :
    (setTimeZone t).capture (set ++ (session ++ (raw ++ (op ++ value)))) = none ∧
      (setSchema t).capture (set ++ (session ++ (raw ++ (op ++ value)))) = none ∧
        setCharacteristics.capture (set ++ (session ++ (raw ++ (op ++ value)))) = none := by
  have begun : Begun (session ++ (raw ++ (op ++ value))) := by
    rcases scope_ with rfl | session_
    · exact name.begun _
    · exact session_.begun ⟨_, _, rfl, rfl⟩
  refine ⟨capture_eq_none ?_, capture_eq_none ?_, capture_eq_none ?_⟩
  · rw [setTimeZone, ways_set_bind set_ begun]
    · exact ways_other_word name assigns scope_ (by simp) rfl ⟨_, _, rfl, rfl⟩ (by decide)
        (by decide)
    · exact refuses_scoped ⟨_, _, rfl, rfl⟩
  · rw [setSchema, ways_set_bind set_ begun]
    · exact ways_other_word name assigns scope_ (by simp) rfl ⟨_, _, rfl, rfl⟩ (by decide)
        (by decide)
    · exact refuses_scoped ⟨_, _, rfl, rfl⟩
  · rw [setCharacteristics, ways_set_bind set_ begun]
    · rcases scope_ with rfl | session_
      · rw [List.nil_append]
        exact ways_reserved name assigns (by simp) rfl
      · rw [session_.ways_bind (name.begun _)]
        · exact ways_reserved name assigns (by simp) rfl
        · exact (refuses_word ⟨_, _, rfl, rfl⟩).bind
    · exact (refuses_word ⟨_, _, rfl, rfl⟩).bind

/-- Behind `TO` or `=` the value is taken, with what is left of the space in front of it. -/
theorem capture_value (found : Option SetScope) (name : Text) {behind : Text}
    (valued : Valued value)
    (blank : ∀ c ∈ behind, isSpace c = true) :
    ∃ before, (∀ c ∈ before, isSpace c = true) ∧
      (spaces >>= fun _ => reluctant anyChar >>= fun v =>
        (pure (found, name, v) : Pattern Char (Option SetScope × Text × Text))).capture
          (behind ++ value) = some (found, name, before ++ value) := by
  have way : ((found, name, value), []) ∈ (spaces >>= fun _ => reluctant anyChar >>= fun v =>
      (pure (found, name, v) : Pattern Char (Option SetScope × Text × Text))).ways
        (behind ++ value) := by
    refine mem_bind.mpr ⟨(), value, mem_spaces.mpr ⟨behind, blank, rfl⟩, ?_⟩
    exact mem_bind.mpr ⟨value, [], valued.mem_reluctant, mem_pure.mpr ⟨rfl, rfl⟩⟩
  obtain ⟨_, captured, before, solid, rfl⟩ := capture_satisfies
    (P := fun v => ∃ before, (∀ c ∈ before, isSpace c = true) ∧ v = (found, name, before ++ value))
    way (fun v rest member => by
      obtain ⟨_, _, first, later⟩ := mem_bind.mp member
      obtain ⟨v', _, last, done⟩ := mem_bind.mp later
      obtain ⟨run, all, split⟩ := mem_spaces.mp first
      obtain ⟨before, rfl, rfl⟩ := blank_split all valued.begun split
      obtain ⟨rfl, _⟩ := mem_pure.mp done
      exact ⟨before, fun c inside => blank c (List.mem_append_right run inside),
        by rw [valued.of_mem_reluctant last]⟩)
  exact ⟨before, solid, captured⟩

theorem capture_assigned (found : Option SetScope) (name : Text) (valued : Valued value)
    (assigns : Assigns op) :
    ∃ before, (∀ c ∈ before, isSpace c = true) ∧
      (spaces >>= fun _ => either (word "TO") (sign '=') >>= fun _ => spaces >>= fun _ =>
        reluctant anyChar >>= fun v =>
          (pure (found, name, v) : Pattern Char (Option SetScope × Text × Text))).capture
            (op ++ value) = some (found, name, before ++ value) := by
  have refuses : ∀ {γ : Type} (f : Unit → Pattern Char γ),
      Refuses isSpace (either (word "TO") (sign '=') >>= f) :=
    fun f => ((refuses_word ⟨_, _, rfl, rfl⟩).either (refuses_sign rfl)).bind
  cases assigns with
  | @word space _ gap keyword =>
    obtain ⟨read, behind, reads, g, rfl⟩ := keyword
    obtain ⟨before, blank, captured⟩ := capture_value found name valued g.2
    refine ⟨before, blank, ?_⟩
    have begun : Begun (read ++ (behind ++ value)) := begun_of_reads reads ⟨_, _, rfl, rfl⟩
    rw [List.append_assoc, List.append_assoc,
      capture_congr (ways_spaces_bind gap.2 begun (refuses _))]
    refine capture_append ways_either_bind ?_
    rw [capture_congr (ways_word_bind reads)]
    exact captured
  | @equals space behind blank blank' =>
    obtain ⟨before, solid, captured⟩ := capture_value found name valued blank'
    refine ⟨before, solid, ?_⟩
    have begun : Begun ('=' :: (behind ++ value)) := begun_cons rfl _
    have other : (word "TO").ways ('=' :: (behind ++ value)) = [] := ways_word_of_none rfl
    rw [List.append_assoc, List.cons_append,
      capture_congr (ways_spaces_bind blank begun (refuses _)), ← captured]
    apply capture_congr
    rw [ways_either_bind, bind_eq_nil other, List.nil_append, sign, bind_assoc,
      ways_one_bind (by simp), pure_bind]

theorem capture_named (tables : WordTables t) (found : Option SetScope) (valued : Valued value)
    (name : NameText t raw) (assigns : Assigns op) :
    ∃ before, (∀ c ∈ before, isSpace c = true) ∧
      (settingWord t >>= fun name => spaces >>= fun _ => either (word "TO") (sign '=') >>= fun _ =>
        spaces >>= fun _ => reluctant anyChar >>= fun v =>
          (pure (found, name, v) : Pattern Char (Option SetScope × Text × Text))).capture
            (raw ++ (op ++ value)) = some (found, raw, before ++ value) := by
  obtain ⟨before, blank, captured⟩ := capture_assigned found raw valued assigns
  refine ⟨before, blank, ?_⟩
  have unquoted : '"' ∉ (raw ++ (op ++ value)).head? := by
    obtain ⟨c, raw, rfl⟩ := List.exists_cons_of_ne_nil name.nonempty
    exact fun quote => (name.signs c (by simp)).1 (Option.some.inj quote)
  have stops : ∀ c ∈ (op ++ value).head?, t.isWord c = false := by
    intro c member
    rcases assigns.head c member with space | rfl
    · exact tables.space c space
    · rw [tables.ascii '=' (by decide)]
      rfl
  have wordless : ∀ {γ : Type} (f : Text → Pattern Char γ),
      (settingWord t >>= f).ways (raw ++ (op ++ value)) =
        (many1 t.isWord >>= f).ways (raw ++ (op ++ value)) := by
    intro γ f
    rw [settingWord, ways_either_bind, bind_eq_nil (ways_quoted_of_head unquoted), List.nil_append]
  rw [capture_congr (wordless _)]
  exact capture_many1_bind name.nonempty name.isWord stops captured

theorem capture_setRe (tables : WordTables t) (valued : Valued value) (name : NameText t raw)
    (assigns : Assigns op) (set_ : Keyword "SET" set)
    (scope_ : session = [] ∨ Keyword "SESSION" session) :
    ∃ found before, found ≠ some SetScope.localScope ∧ (∀ c ∈ before, isSpace c = true) ∧
      (setRe t).capture (set ++ (session ++ (raw ++ (op ++ value)))) =
        some (found, raw, before ++ value) := by
  have refuses :
      ∀ {γ : Type} (f : Text → Pattern Char γ), Refuses isSpace (settingWord t >>= f) := by
    intro γ f
    refine ((Refuses.bind (refuses_sign rfl)).either ?_).bind
    refine Refuses.bind ?_
    intro a text space
    simp [one, tables.space a space]
  rcases scope_ with rfl | session_
  · obtain ⟨before, blank, captured⟩ := capture_named tables none valued name assigns
    refine ⟨none, before, by simp, blank, ?_⟩
    rw [List.nil_append, ← captured, setRe]
    apply capture_congr
    rw [ways_set_bind set_ (name.begun _), optional_bind_of_nil (ways_scope_name name assigns)]
    exact refuses_scope.optional_bind (refuses _)
  · obtain ⟨before, blank, captured⟩ :=
      capture_named tables (some .session) valued name assigns
    refine ⟨some .session, before, by simp, blank, ?_⟩
    rw [setRe, capture_congr (ways_set_bind set_ ?_ ?_)]
    · apply capture_optional_bind
      rw [capture_congr (ways_scope_session session_ (name.begun _) ?_)]
      · exact captured
      · exact refuses _
    · exact session_.begun ⟨_, _, rfl, rfl⟩
    · exact refuses_scope.optional_bind (refuses _)

end Settings

/-! ## What is stored -/

/-- What `_set_value` strips a value of. -/
def isQuote (c : Char) : Bool := c = '\'' ∨ c = '"'

/-- No apostrophe anywhere, and no double quote at either end. -/
structure Plain (s : Text) : Prop where
  apostrophe : '\'' ∉ s
  first : s.head? ≠ some '"'
  last : s.getLast? ≠ some '"'

section Quotes

theorem length_doubled {quote : Char} {s : Text} :
    s.length ≤ (doubled quote s).length ∧
      ((doubled quote s).length = s.length → quote ∉ s) := by
  induction s with
  | nil => simp [doubled]
  | cons c s ih =>
    by_cases same : c = quote
    · subst same
      rw [Endpoint.doubled_cons_quote]
      simp only [List.length_cons]
      refine ⟨by omega, fun equal => ?_⟩
      have := ih.1
      omega
    · rw [Endpoint.doubled_cons_other same]
      simp only [List.length_cons, List.mem_cons, not_or]
      exact ⟨by omega, fun equal => ⟨Ne.symm same, ih.2 (by omega)⟩⟩

/-- The ends of a text in which the quote is at neither are those of the doubled one. -/
theorem solid_doubled {s : Text} (solid : Trim.Solid isQuote s) :
    Trim.Solid isQuote (doubled '\'' s) := by
  constructor
  · intro c member
    cases s with
    | nil => cases member
    | cons a s =>
      have bare : isQuote a = false := solid.1 a rfl
      have other : a ≠ '\'' := by
        rintro rfl
        cases bare
      rw [Endpoint.doubled_cons_other other] at member
      obtain rfl := Option.some.inj member
      exact bare
  · intro c member
    induction s using List.reverseRecOn with
    | nil => cases member
    | append_singleton s a _ =>
      have bare : isQuote a = false := solid.2 a (by simp)
      have other : a ≠ '\'' := by
        rintro rfl
        cases bare
      rw [Endpoint.doubled_append, Endpoint.doubled_cons_other other] at member
      rw [show doubled '\'' [] = [] from rfl, List.getLast?_concat] at member
      obtain rfl := Option.some.inj member
      exact bare

theorem trim_literal_eq_iff (s : Text) : Trim.trim isQuote (literal s) = s ↔ Plain s := by
  have one : Trim.Blank isQuote ['\''] := by simp [Trim.Blank, isQuote]
  have body : Trim.trim isQuote (literal s) = Trim.trim isQuote (doubled '\'' s) :=
    Trim.trim_blank one one
  rw [body]
  constructor
  · intro same
    have solid : Trim.Solid isQuote s := by
      rw [← same]
      exact Trim.solid_trim _
    rw [Trim.trim_eq_self_iff.mpr (solid_doubled solid)] at same
    refine ⟨length_doubled.2 (by rw [same]), fun first => ?_, fun last => ?_⟩
    · exact absurd (solid.1 '"' first) (by decide)
    · exact absurd (solid.2 '"' last) (by decide)
  · intro plain
    rw [Endpoint.doubled_eq_self plain.apostrophe, Trim.trim_eq_self_iff]
    have bare : ∀ c ∈ s, c ≠ '"' → isQuote c = false := by
      intro c member other
      have other' : c ≠ '\'' := fun same => plain.apostrophe (same ▸ member)
      simp [isQuote, other, other']
    refine ⟨fun c member => ?_, fun c member => ?_⟩
    · exact bare c (List.mem_of_mem_head? member) fun same => plain.first (same ▸ member)
    · exact bare c (List.mem_of_getLast? member) fun same => plain.last (same ▸ member)

end Quotes

section Values

variable {u : UnicodeTables}

theorem strip_ofList (p : Char → Bool) (l : Text) :
    strip p (String.ofList l) = String.ofList (Trim.trim p l) := by
  rw [strip, String.toList_ofList]
  rfl

theorem strip_solid {p : Char → Bool} {l : Text} (solid : ∀ c ∈ l, p c = false) :
    strip p (String.ofList l) = String.ofList l := by
  rw [strip_ofList, Trim.trim_eq_self_iff.mpr]
  exact ⟨fun c member => solid c (List.mem_of_mem_head? member),
    fun c member => solid c (List.mem_of_getLast? member)⟩

/-- White space in front of a value is stripped, and nothing else. -/
theorem strip_value {value before : Text} (valued : Valued value)
    (blank : ∀ c ∈ before, isSpace c = true) :
    strip isSpace (String.ofList (before ++ value)) = String.ofList value := by
  have solid : Trim.Solid isSpace value :=
    ⟨valued.begun, fun c member => (valued.last c member).1⟩
  have nothing : Trim.Blank isSpace ([] : Text) := fun _ member => absurd member List.not_mem_nil
  rw [strip_ofList, ← List.append_nil (before ++ value), List.append_assoc,
    Trim.trim_of_solid blank solid nothing]

end Values

/-- What the Unicode tables say of ASCII letters, of an apostrophe and of digits. -/
structure SetTables (u : UnicodeTables) : Prop where
  lower_ascii : ∀ s : String, (∀ c ∈ s.toList, c.toNat < 128) →
    u.lower s = String.ofList (s.toList.map Char.toLower)
  upper_quote : ∀ s : String, '\'' ∈ s.toList → '\'' ∈ (u.upper s).toList
  decimal : ∀ c : Char, c.isDigit = true → u.isDecimal c = true

/-- The catalogue lets a client set the parameters above, takes any text for them and reads
the same text back. -/
structure TextParameters {Value : Type} (cat : Catalogue Value) : Prop where
  settable : ∀ name ∈ stringParameters, checkSettable cat name = none
  text : ∀ name ∈ stringParameters, ∀ text, ∃ value,
    cat.parse name text = .ok value ∧ cat.render name value = text

section Statements

variable {Value Stmt Port : Type} [DecidableEq Value]

/-- What the middleware answers a SET with: an error, or the outcome of its statement. -/
def answerSet (cat : Catalogue Value) (u : UnicodeTables) (t : TextTables)
    (w : World Value Stmt Port) (sql : Text) (answers : List Answer) :
    Option (World Value Stmt Port × Option Failure) :=
  (setVariants u t sql).map fun
    | .error e => (w.fail, some (.error e))
    | .ok s => World.execute cat w ⟨s, answers⟩

/-- A value that reads as `s` is held under the name, and stays when the transaction
commits. -/
structure Stores (cat : Catalogue Value) (w : World Value Stmt Port) (name : String) (s : Text) :
    Prop where
  visible : ∃ value, w.state.sessionVars.get? name = some value ∧
    cat.render name value = String.ofList s
  committed : ∃ value, w.state.committedVars.get? name = some value ∧
    cat.render name value = String.ofList s

/-- Refused as a syntax error, with nothing stored and nothing owed to the client. -/
structure Refused (w : World Value Stmt Port) (outcome : World Value Stmt Port × Option Failure) :
    Prop where
  error : ∃ e, outcome.2 = some (.error e) ∧ e.sqlstate = "42601"
  state : outcome.1.state = w.state
  reports : outcome.1.connection.pendingParameterStatus = w.connection.pendingParameterStatus

section Resolution

variable {u : UnicodeTables} {t : TextTables} {form : SetForm} {name : String} {value sql s : Text}

theorem settingName_raw (tables : SetTables u) (words : WordTables t) {raw : Text}
    (parameter : name ∈ stringParameters) (named : raw.map Char.toLower = name.toList) :
    settingName u (String.ofList raw) = name := by
  have facts := nameText words parameter named
  have ascii : ∀ c ∈ (String.ofList raw).toList, c.toNat < 128 := by
    rw [String.toList_ofList]
    exact ascii_of_name parameter named
  have bare : ∀ c ∈ raw, decide (c = '"') = false :=
    fun c member => decide_eq_false (facts.signs c member).1
  rw [settingName, strip_solid facts.solid, strip_solid bare, tables.lower_ascii _ ascii,
    String.toList_ofList, named, String.ofList_toList]

/-- What a spelling comes to: the value is the one of the text, with white space in front. -/
theorem setVariants_of_spelling (tables : SetTables u) (words : WordTables t)
    (valued : Valued value) (spelled : SetSpelling value form name sql) :
    ∃ before, (∀ c ∈ before, isSpace c = true) ∧
      setVariants u t sql =
        if form = .setting ∧ isPlaceholder u (String.ofList (before ++ value)) = true then
          some (.error ⟨"42601", "syntax error at or near \"" ++ String.ofList value ++ "\"", []⟩)
        else
          some (.ok (.assignment
            [(name, setValue u (String.ofList (before ++ value)))] false)) := by
  cases spelled with
  | @setting _ set session raw op keyword scope parameter named assigns =>
    have facts := nameText words parameter named
    obtain ⟨found, before, session_, blank, captured⟩ :=
      capture_setRe words valued facts assigns keyword scope
    obtain ⟨timeZone, schema, characteristics⟩ :
        (setTimeZone t).capture (set ++ (session ++ (raw ++ (op ++ value)))) = none ∧
          (setSchema t).capture (set ++ (session ++ (raw ++ (op ++ value)))) = none ∧
            setCharacteristics.capture (set ++ (session ++ (raw ++ (op ++ value)))) = none :=
      captures_none facts assigns keyword scope
    have plain : '.' ∉ (String.ofList raw).toList := by
      rw [String.toList_ofList]
      exact fun dot => (facts.signs '.' dot).2.2 rfl
    have passed : name ∉ passedThroughSettings := by
      intro member
      exact absurd (List.all_eq_true.mp stringParameters_own name parameter) (by simp [member])
    refine ⟨before, blank, ?_⟩
    rw [setVariants, timeZone, schema, characteristics, captured]
    simp only [setVariant, dif_pos plain, PgMimic.setVariants,
      settingName_raw tables words parameter named, passed, if_false, true_and, session_,
      decide_false, strip_value valued blank]
  | timeZone keyword time_ zone_ =>
    obtain ⟨before, blank, captured⟩ := capture_setTimeZone (t := t) valued keyword time_ zone_
    refine ⟨before, blank, ?_⟩
    rw [setVariants, captured]
    simp only [PgMimic.setVariants, reduceCtorEq, false_and, if_false]
  | schema keyword schema_ =>
    obtain ⟨other, before, blank, captured⟩ := capture_setSchema (t := t) valued keyword schema_
    refine ⟨before, blank, ?_⟩
    rw [setVariants, other, captured]
    simp only [PgMimic.setVariants, reduceCtorEq, false_and, if_false]

theorem SetSpelling.parameter (spelled : SetSpelling value form name sql) :
    name ∈ stringParameters := by
  cases spelled with
  | setting _ _ parameter _ _ => exact parameter
  | timeZone _ _ _ => simp [stringParameters]
  | schema _ _ => simp [stringParameters]

/-- The value of a literal begins with an apostrophe: it is no word for the default, and no
placeholder. -/
theorem setValue_literal (tables : SetTables u) {before : Text} (line : '\n' ∉ s)
    (blank : ∀ c ∈ before, isSpace c = true) :
    isPlaceholder u (String.ofList (before ++ literal s)) = false ∧
      setValue u (String.ofList (before ++ literal s)) =
        some (String.ofList (Trim.trim isQuote (literal s))) := by
  have text := strip_value (valued_literal line) blank
  have quote : '\'' ∈ (String.ofList (literal s)).toList := by
    rw [String.toList_ofList, literal]
    exact List.mem_cons_self
  have upper : u.upper (String.ofList (literal s)) ∉ ["DEFAULT", "LOCAL"] := by
    intro member
    have inside := tables.upper_quote _ quote
    rcases List.mem_cons.mp member with same | member
    · rw [same] at inside
      exact absurd inside (by decide)
    · rw [List.mem_singleton.mp member] at inside
      exact absurd inside (by decide)
  constructor
  · rw [isPlaceholder, text, String.toList_ofList]
    rfl
  · rw [setValue, text, if_neg upper, strip_ofList]
    rfl

theorem isPlaceholder_digits (tables : SetTables u) {before digits : Text} (some_ : digits ≠ [])
    (digit : ∀ c ∈ digits, c.isDigit = true) (blank : ∀ c ∈ before, isSpace c = true) :
    isPlaceholder u (String.ofList (before ++ '$' :: digits)) = true := by
  have decimal : digits.all u.isDecimal = true :=
    List.all_eq_true.mpr fun c member => tables.decimal c (digit c member)
  rw [isPlaceholder, strip_value (valued_placeholder digit) blank, String.toList_ofList]
  change (!digits.isEmpty && digits.all u.isDecimal) = true
  rw [decimal, Bool.and_true, Bool.not_eq_true', List.isEmpty_eq_false_iff]
  exact some_

end Resolution

section Outcomes

variable {cat : Catalogue Value} {w : World Value Stmt Port} {name : String} {s stored : Text}
  {answers : List Answer}

omit [DecidableEq Value] in
theorem parseValue_parameter (parameters : TextParameters cat) (parameter : name ∈ stringParameters)
    (value : Option String) : ∃ kept, parseValue cat name value = .ok kept := by
  cases value with
  | none => exact ⟨none, rfl⟩
  | some text =>
    obtain ⟨kept, parsed, _⟩ := parameters.text name parameter text
    exact ⟨some kept, by rw [parseValue, parsed]; rfl⟩

/-- A write that the session takes goes through, whatever its value. -/
theorem execute_completes (parameters : TextParameters cat) (parameter : name ∈ stringParameters)
    (value : Option String) (told : answers.headD none = none) (running : w.txStatus ≠ .E) :
    (World.execute cat w ⟨.assignment [(name, value)] false, answers⟩).2 = none := by
  obtain ⟨kept, parsed⟩ := parseValue_parameter parameters parameter value
  obtain ⟨_, executed⟩ := execute_of_write (Or.inl rfl) (parameters.settable name parameter) parsed
    told running
  rw [executed]

theorem stores_iff (parameters : TextParameters cat) (parameter : name ∈ stringParameters)
    (told : answers.headD none = none) (running : w.txStatus ≠ .E) :
    Stores cat (World.execute cat w
        ⟨.assignment [(name, some (String.ofList stored))] false, answers⟩).1 name s ↔
      stored = s := by
  obtain ⟨value, parsed, rendered⟩ := parameters.text name parameter (String.ofList stored)
  have accepted : parseValue cat name (some (String.ofList stored)) = .ok (some value) := by
    rw [parseValue, parsed]
    rfl
  obtain ⟨owed, executed⟩ := execute_of_write (Or.inl rfl) (parameters.settable name parameter)
    accepted told running
  rw [executed]
  have visible :
      ((w.withState (recordSetting w.state name (some value) false).1).withParameterStatus
      owed).state.sessionVars.get? name = some value := by
    change (assign w.state.sessionVars name (some value)).get? name = some value
    rw [get?_assign, if_pos rfl]
  have committed : ((w.withState (recordSetting w.state name (some value) false).1
      ).withParameterStatus owed).state.committedVars.get? name = some value := by
    change (assign w.state.committedVars name (some value)).get? name = some value
    rw [get?_assign, if_pos rfl]
  constructor
  · rintro ⟨⟨value', held, reads⟩, _⟩
    obtain rfl := Option.some.inj (visible.symm.trans held)
    exact String.ofList_injective (rendered.symm.trans reads)
  · rintro rfl
    exact ⟨⟨value, visible, rendered⟩, ⟨value, committed, rendered⟩⟩

end Outcomes

/-- A literal is stored exactly if and only if the text has no apostrophe, and a double
quote at neither end; a placeholder is refused in the spelling with `TO` or `=` alone. -/
theorem set_literal_iff {cat : Catalogue Value} {u : UnicodeTables} {t : TextTables}
    (tables : SetTables u) (words : WordTables t) (parameters : TextParameters cat)
    {form : SetForm} {name : String} {sql : Text} (w : World Value Stmt Port)
    (answers : List Answer) (running : w.txStatus ≠ .E) (told : answers.headD none = none) :
    (∀ s, '\n' ∉ s → SetSpelling (literal s) form name sql →
      ((∃ outcome, answerSet cat u t w sql answers = some outcome ∧
          Stores cat outcome.1 name s) ↔ Plain s)) ∧
    (∀ digits, digits ≠ [] → (∀ c ∈ digits, c.isDigit = true) →
      SetSpelling ('$' :: digits) form name sql →
      ((∃ outcome, answerSet cat u t w sql answers = some outcome ∧ Refused w outcome) ↔
        form = .setting)) := by
  constructor
  · intro s line spelled
    obtain ⟨before, blank, resolved⟩ :=
      setVariants_of_spelling (t := t) tables words (valued_literal line) spelled
    obtain ⟨other, value⟩ := setValue_literal tables line blank
    rw [other, value, if_neg (by simp)] at resolved
    rw [answerSet, resolved, Option.map_some]
    simp only [Option.some.injEq, exists_eq_left']
    rw [stores_iff parameters spelled.parameter told running, trim_literal_eq_iff]
  · intro digits some_ digit spelled
    obtain ⟨before, blank, resolved⟩ :=
      setVariants_of_spelling (t := t) tables words (valued_placeholder digit) spelled
    have placeholder := isPlaceholder_digits tables some_ digit blank
    rw [answerSet, resolved, placeholder]
    by_cases generic : form = .setting
    · rw [if_pos ⟨generic, rfl⟩]
      refine iff_of_true ⟨_, rfl, ⟨_, rfl, rfl⟩, World.state_fail w, ?_⟩ generic
      change w.fail.connection.pendingParameterStatus = _
      rw [World.fail]
      split <;> rfl
    · rw [if_neg fun both => generic both.1]
      refine iff_of_false ?_ generic
      rintro ⟨outcome, executed, refused⟩
      obtain ⟨e, error, _⟩ := refused.error
      have completed := execute_completes parameters spelled.parameter
        (setValue u (String.ofList (before ++ '$' :: digits))) told running
      rw [← Option.some.inj executed] at error
      exact absurd (completed.symm.trans error) (by simp)

end Statements

/-- A catalogue of the parameters above. -/
def textCatalogue : Catalogue String where
  context name := if name ∈ stringParameters then some "user" else none
  default name := if name ∈ stringParameters then some "" else none
  parse _ text := .ok text
  render _ value := value
  entry name := by
    by_cases h : name ∈ stringParameters <;>
      simp only [h, if_true, if_false, Option.isSome_some, Option.isSome_none]

theorem textParameters : TextParameters textCatalogue where
  settable := by
    intro name parameter
    have context : textCatalogue.context name = some "user" := if_pos parameter
    rw [checkSettable, context]
    simp
  text := fun _ _ text => ⟨text, rfl, rfl⟩

/-- The tables of a text in ASCII. -/
def asciiUnicode : UnicodeTables where
  lower s := String.ofList (s.toList.map Char.toLower)
  upper s := String.ofList (s.toList.map Char.toUpper)
  isDecimal := Char.isDigit
  lower_dot s dot := by
    rw [String.toList_ofList, List.mem_map] at dot
    obtain ⟨c, member, folded⟩ := dot
    have same : c = '.' := by
      rw [← Char.ofNat_toNat c]
      have small := ascii_of_toLower (c := c) (by rw [folded]; decide)
      have every : ∀ n < 128, (Char.ofNat n).toLower = '.' → Char.ofNat n = '.' := by decide
      rw [← Char.ofNat_toNat c] at folded
      exact every c.toNat small folded
    exact same ▸ member
  lower_small s small := by
    have kept : s.toList.map Char.toLower = s.toList := by
      rw [← List.map_id s.toList, List.map_map]
      refine List.map_congr_left fun c member => ?_
      change c.toLower = c
      exact dif_neg fun upper => (small c member).2 (decide_eq_true upper)
    rw [kept, String.ofList_toList]

theorem setTables_ascii : SetTables asciiUnicode where
  lower_ascii := fun _ _ => rfl
  upper_quote := by
    intro s quote
    change '\'' ∈ (String.ofList (s.toList.map Char.toUpper)).toList
    rw [String.toList_ofList]
    exact List.mem_map.mpr ⟨'\'', quote, rfl⟩
  decimal := fun _ digit => digit

theorem schemaSpelling (value : Text) :
    SetSpelling value .schema "search_path" ("SET SCHEMA ".toList ++ value) := by
  have set : Keyword "SET" "SET ".toList :=
    ⟨"SET".toList, [' '], rfl, ⟨by simp, by simp [isSpace]⟩, rfl⟩
  have schema : Keyword "SCHEMA" "SCHEMA ".toList :=
    ⟨"SCHEMA".toList, [' '], rfl, ⟨by simp, by simp [isSpace]⟩, rfl⟩
  exact .schema set schema

/-- An apostrophe stays doubled, and a placeholder is taken for the text of a schema. -/
theorem schema_literal_unequal :
    ∃ (t : System String Unit Unit) (c : Client String Unit Unit),
      Trace.run (System.step textCatalogue) (System.start ∅ 5432) [.connect 1 "app" ∅] = some t ∧
      t.clients 1 = some c ∧
      SetSpelling (literal "it's".toList) .schema "search_path" "SET SCHEMA 'it''s'".toList ∧
      (∃ outcome, answerSet textCatalogue asciiUnicode Endpoint.asciiTables (c.world t.server)
          "SET SCHEMA 'it''s'".toList [] = some outcome ∧ outcome.2 = none ∧
        Stores textCatalogue outcome.1 "search_path" "it''s".toList ∧
        ¬Stores textCatalogue outcome.1 "search_path" "it's".toList) ∧
      SetSpelling "$1".toList .schema "search_path" "SET SCHEMA $1".toList ∧
      (∃ outcome, answerSet textCatalogue asciiUnicode Endpoint.asciiTables (c.world t.server)
          "SET SCHEMA $1".toList [] = some outcome ∧ outcome.2 = none ∧
        Stores textCatalogue outcome.1 "search_path" "$1".toList) := by
  refine ⟨_, _, rfl, rfl, schemaSpelling (literal "it's".toList), ⟨_, rfl, rfl, ?_, ?_⟩,
    schemaSpelling "$1".toList, ⟨_, rfl, rfl, ?_⟩⟩
  · exact ⟨⟨_, rfl, rfl⟩, ⟨_, rfl, rfl⟩⟩
  · rintro ⟨⟨value, held, reads⟩, _⟩
    obtain rfl := Option.some.inj held
    exact absurd reads (by decide)
  · exact ⟨⟨_, rfl, rfl⟩, ⟨_, rfl, rfl⟩⟩

/-- `SET SCHEMA 'a b'` is stored as it is written. -/
theorem schema_literal_equal :
    ∃ (t : System String Unit Unit) (c : Client String Unit Unit),
      Trace.run (System.step textCatalogue) (System.start ∅ 5432) [.connect 1 "app" ∅] = some t ∧
      t.clients 1 = some c ∧
      ∃ outcome, answerSet textCatalogue asciiUnicode Endpoint.asciiTables (c.world t.server)
          "SET SCHEMA 'a b'".toList [] = some outcome ∧
        Stores textCatalogue outcome.1 "search_path" "a b".toList := by
  refine ⟨_, _, rfl, rfl, ?_⟩
  refine ((set_literal_iff setTables_ascii wordTables_ascii textParameters _ [] (by decide) rfl).1
    "a b".toList (by decide) (schemaSpelling (literal "a b".toList))).mpr ?_
  exact ⟨by decide, by decide, by decide⟩

end PgMimic.SetPatterns
