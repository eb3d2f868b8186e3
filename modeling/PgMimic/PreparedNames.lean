import PgMimic.Identifiers
import PgMimic.ProtocolAgreement

/-!
# The names of prepared statements

PREPARE and EXECUTE fold an unquoted name, DEALLOCATE takes it as it is written. The three
agree on the names that folding leaves alone.
-/

namespace PgMimic.Protocols

open PgMimic.Copy (Text)
open PgMimic.Endpoint (TextTables)
open PgMimic.StatementText
open PgMimic.Patterns

variable {Value Cell : Type}

/-! ## DEALLOCATE -/

section Deallocate

variable (t : TextTables)

/-- The word ALL at the end of a statement. -/
def lastAll (text : Text) : Option Text :=
  match keyword "ALL".toList text with
  | some rest => if ends rest then some (text.take 3) else none
  | none => none

/-- The group of `_DEALLOCATE_RE`. -/
def readDeallocate (text : Text) : Option Text :=
  (spaced "DEALLOCATE".toList (text.dropWhile isSpace)).bind fun rest =>
    [spaced "PREPARE".toList rest, some rest].findSome? fun rest =>
      rest.bind fun rest => (lastAll rest).orElse fun _ => lastIdent t rest

abbrev Registry (Value Cell : Type) := Dict String (Prepared Value Cell)

/-- What `_deallocate_statement` does when it is executed. -/
def deallocate (d : Registry Value Cell) (raw : Text) : Registry Value Cell × Option Failure :=
  let name := String.ofList (Trim.trim (· = '"') raw)
  if t.upper raw = "ALL".toList ∧ raw.head? ≠ some '"' then (∅, none)
  else match d.get? name with
    | none => (d, some (.error (noStatement name)))
    | some _ => (d.erase name, none)

end Deallocate

/-- On a name that is not empty it is what the protocols' statements do. -/
theorem executeStatic_deallocate [DecidableEq Value] (cat : Catalogue Value)
    (methods : Methods Value Cell) (t : TextTables) (w : Stored Value Cell) {raw : Text}
    (named : String.ofList (Trim.trim (· = '"') raw) ≠ "")
    (one : ¬(t.upper raw = "ALL".toList ∧ raw.head? ≠ some '"')) :
    executeStatic cat methods w (.deallocate (some ⟨_, named⟩)) =
      (w.withState { w.state with statements := (deallocate t w.state.statements raw).1 },
        match (deallocate t w.state.statements raw).2 with
        | none => .ok []
        | some failure => .error failure) := by
  rw [deallocate, if_neg one, executeStatic]
  cases w.state.statements.get? (String.ofList (Trim.trim (· = '"') raw)) <;> rfl

/-! ## The registry -/

section Registry

variable (t : TextTables)

/-- What writes to the registry, from the wire or by the text of a statement. The inner
statement of a PREPARE has been prepared. -/
inductive NameEvent (Value Cell : Type) where
  | parse (name : String) (statement : Prepared Value Cell)
  | prepare (sql : Text) (statement : Prepared Value Cell)
  | deallocate (sql : Text)
  | close (name : String)
  | discardAll

/-- The name that PREPARE stores its statement under. -/
def preparedName (sql : Text) : Option String :=
  (readPrepare t sql).map fun (raw, _, _) => identifier t raw

def NameEvent.step (d : Registry Value Cell) : NameEvent Value Cell → Registry Value Cell
  | .parse name statement => d.set name statement
  | .prepare sql statement => match preparedName t sql with
    | some name => d.set name statement
    | none => d
  | .deallocate sql => match readDeallocate t sql with
    | some raw => (Protocols.deallocate t d raw).1
    | none => d
  | .close name => d.erase name
  | .discardAll => ∅

/-- The name under which an event creates a statement. -/
def NameEvent.creates : NameEvent Value Cell → Option String
  | .parse name _ => some name
  | .prepare sql _ => preparedName t sql
  | .deallocate _ | .close _ | .discardAll => none

def registry (events : List (NameEvent Value Cell)) : Registry Value Cell :=
  events.foldl (NameEvent.step t) ∅

variable {t}

theorem get?_deallocate (d : Registry Value Cell) (raw : Text) (name : String)
    (held : (deallocate t d raw).1.get? name ≠ none) : d.get? name ≠ none := by
  intro absent
  apply held
  rw [deallocate]
  split
  · rfl
  · cases found : d.get? (String.ofList (Trim.trim (· = '"') raw)) with
    | none => exact absent
    | some statement =>
      change (d.erase _).get? name = none
      rw [Dict.get?_erase, absent, ite_self]

/-- What an event leaves was there before, or it has created it. -/
theorem get?_step {d : Registry Value Cell} {e : NameEvent Value Cell} {name : String}
    (held : (e.step t d).get? name ≠ none) : d.get? name ≠ none ∨ e.creates t = some name := by
  have set : ∀ {key statement}, (d.set key statement).get? name ≠ none →
      d.get? name ≠ none ∨ some key = some name := by
    intro key statement held
    rw [Dict.get?_set] at held
    by_cases same : name = key
    · exact Or.inr (by rw [same])
    · rw [if_neg same] at held
      exact Or.inl held
  cases e with
  | parse key statement => exact set held
  | prepare sql statement =>
    simp only [NameEvent.step] at held
    simp only [NameEvent.creates]
    cases found : preparedName t sql with
    | none =>
      rw [found] at held
      exact Or.inl held
    | some key =>
      rw [found] at held
      exact set held
  | deallocate sql =>
    simp only [NameEvent.step] at held
    cases found : readDeallocate t sql with
    | none =>
      rw [found] at held
      exact Or.inl held
    | some raw =>
      rw [found] at held
      exact Or.inl (get?_deallocate d raw name held)
  | close key =>
    left
    intro absent
    apply held
    change (d.erase key).get? name = none
    rw [Dict.get?_erase, absent, ite_self]
  | discardAll => exact absurd rfl held

/-- Every name of the registry was created by a Parse or a PREPARE. -/
theorem created_of_registry {events : List (NameEvent Value Cell)} {name : String}
    (held : (registry t events).get? name ≠ none) :
    name ∈ events.filterMap (NameEvent.creates t) := by
  induction events using List.reverseRecOn with
  | nil => exact absurd rfl held
  | append_singleton events e ih =>
    rw [registry, List.foldl_append] at held
    rw [List.filterMap_append, List.mem_append]
    rcases get?_step held with before | created
    · exact Or.inl (ih before)
    · exact Or.inr (by simp [created])

end Registry

/-! ## The three statements -/

/-- `PREPARE name AS query`. -/
inductive PrepareSpelling {t : TextTables} (id : Identifier t) : Text → Prop where
  | intro {prepare gap as query : Text} (prepare_ : Keyword "PREPARE" prepare) (gap_ : Gap gap)
      (as_ : Keyword "AS" as) (some_ : query ≠ []) (begun : Begun query) :
      PrepareSpelling id (prepare ++ (id.spelling ++ (gap ++ (as ++ query))))

/-- `EXECUTE name [;]`. -/
inductive ExecuteSpelling {t : TextTables} (id : Identifier t) : Text → Prop where
  | intro {execute closing : Text} (execute_ : Keyword "EXECUTE" execute)
      (closing_ : Closing closing) : ExecuteSpelling id (execute ++ (id.spelling ++ closing))

/-- `DEALLOCATE [PREPARE] name [;]`. -/
inductive DeallocateSpelling {t : TextTables} (id : Identifier t) : Text → Prop where
  | intro {deallocate prepare closing : Text} (deallocate_ : Keyword "DEALLOCATE" deallocate)
      (prepare_ : prepare = [] ∨ Keyword "PREPARE" prepare) (closing_ : Closing closing) :
      DeallocateSpelling id (deallocate ++ (prepare ++ (id.spelling ++ closing)))

section Reading

variable {t : TextTables} {id : Identifier t} {sql text closing : Text}

theorem begun_spelling (tables : WordTables t) (id : Identifier t) (rest : Text) :
    Begun (id.spelling ++ rest) := by
  obtain ⟨c, later, spelled, solid, _⟩ := id.begun tables
  rw [spelled]
  exact begun_cons solid (later ++ rest)

theorem skip_keyword {letters : String} {read rest : Text} (k : Keyword letters read)
    (lettered : Lettered letters) : (read ++ rest).dropWhile isSpace = read ++ rest :=
  Trim.dropWhile_solid (k.begun lettered)

theorem upToEnd_isSome (some_ : text ≠ []) : (upToEnd text).isSome = true := by
  rw [upToEnd, Option.isSome_map, List.find?_isSome]
  have long : text.length - 1 < text.length := by
    have := List.length_pos_iff.mpr some_
    omega
  refine ⟨text.length - 1, List.mem_range.mpr long, ?_⟩
  rw [List.drop_eq_nil_of_le (by omega)]
  rfl

theorem readPrepare_spelling (tables : WordTables t) (plain : id.Plain)
    (spelled : PrepareSpelling id sql) :
    ∃ inner, readPrepare t sql = some (id.spelling, [], inner) := by
  cases spelled with
  | @intro prepare gap as query prepare_ gap_ as_ some_ begun =>
    obtain ⟨c, run, rfl⟩ := List.exists_cons_of_ne_nil gap_.1
    have stops : ∀ a ∈ (c :: run ++ (as ++ query)).head?, t.isWord a = false := by
      intro a member
      obtain rfl := Option.some.inj member
      exact tables.space _ (gap_.2 _ (by simp))
    have start : Begun (as ++ query) := as_.begun ⟨_, _, rfl, rfl⟩
    have skipped : (c :: run ++ (as ++ query)).dropWhile isSpace = as ++ query := by
      rw [List.dropWhile_append_of_pos gap_.2, Trim.dropWhile_solid start]
    obtain ⟨inner, whole⟩ := Option.isSome_iff_exists.mp (upToEnd_isSome some_)
    refine ⟨inner, ?_⟩
    rw [readPrepare, skip_keyword prepare_ ⟨_, _, rfl, rfl⟩,
      prepare_.spaced (begun_spelling tables id _), Option.bind_some,
      ident_plain tables id plain stops, Option.bind_some]
    simp only [skipped]
    have unopened : ∀ body, as ++ query ≠ '(' :: body := by
      intro body same
      obtain ⟨read, behind, reads, _, rfl⟩ := as_
      cases read with
      | nil => cases reads
      | cons a read =>
        obtain rfl : a = '(' := (List.cons.inj same).1
        cases reads
    split
    · next body same => exact absurd same (unopened body)
    · rw [Option.bind_some, spaces_gap gap_ start, Option.bind_some, as_.spaced begun,
        Option.bind_some, whole]
      rfl

theorem dropWhile_closing (closed : Closing closing) :
    closing.dropWhile isSpace = [] ∨ closing.dropWhile isSpace = [';'] := by
  cases closed with
  | nothing => exact Or.inl rfl
  | semicolon blank =>
    rw [List.dropWhile_append_of_pos blank]
    exact Or.inr rfl

theorem readExecute_spelling (tables : WordTables t) (plain : id.Plain)
    (spelled : ExecuteSpelling id sql) : readExecute t sql = some (id.spelling, []) := by
  cases spelled with
  | intro execute_ closing_ =>
    rw [readExecute, skip_keyword execute_ ⟨_, _, rfl, rfl⟩,
      execute_.spaced (begun_spelling tables id _), Option.bind_some,
      ident_plain tables id plain (stops_closing tables closing_), Option.bind_some]
    rcases dropWhile_closing closing_ with done | done
    · simp only [done]
      rfl
    · simp only [done]
      rfl

/-- What stands at the end of a DEALLOCATE: the word ALL, or a name. -/
theorem last_spelling (tables : WordTables t) (plain : id.Plain) (closed : Closing closing) :
    ((lastAll (id.spelling ++ closing)).orElse fun _ => lastIdent t (id.spelling ++ closing)) =
      some id.spelling := by
  have named : lastIdent t (id.spelling ++ closing) = some id.spelling := by
    rw [lastIdent, ident_plain tables id plain (stops_closing tables closed)]
    simp [ends_closing closed]
  rw [named, lastAll]
  cases found : keyword "ALL".toList (id.spelling ++ closing) with
  | none => rfl
  | some rest =>
    by_cases same : id.spelling.map foldCase = "ALL".toList
    · have three : id.spelling.length = 3 := by
        rw [← List.length_map (f := foldCase), same]
        rfl
      simp only [List.take_left' three]
      split <;> rfl
    · obtain ⟨c, later, rfl, solid, other⟩ :=
        keyword_spelling tables id rfl (by decide) same closed found
      simp only [ends_cons_eq_false solid other]
      rfl

/-- A name that is not plain is read by neither. -/
theorem last_not_plain (tables : WordTables t) (other : ¬id.Plain) (closed : Closing closing) :
    ((lastAll (id.spelling ++ closing)).orElse fun _ => lastIdent t (id.spelling ++ closing)) =
      none := by
  have unnamed : lastIdent t (id.spelling ++ closing) = none := by
    rw [← Option.not_isSome_iff_eq_none, lastIdent_spelling tables id closed]
    exact other
  have word : id.spelling.map foldCase ≠ "ALL".toList := fold_not_plain id other rfl
  rw [unnamed, lastAll]
  cases found : keyword "ALL".toList (id.spelling ++ closing) with
  | none => rfl
  | some rest =>
    obtain ⟨c, later, rfl, solid, apart⟩ :=
      keyword_spelling tables id rfl (by decide) word closed found
    simp only [ends_cons_eq_false solid apart]
    rfl

/-- Neither reads anything where there is no name. -/
theorem last_closing (tables : WordTables t) (closed : Closing closing) :
    (StatementText.spaces closing).bind
      (fun rest => (lastAll rest).orElse fun _ => lastIdent t rest) = none := by
  have semicolon : lastIdent t [';'] = none := by
    have bare : t.isWord ';' = false := tables.ascii ';' (by decide)
    rw [lastIdent, ident_of_bare (by simp), List.takeWhile_cons_of_neg (by simp [bare])]
    rfl
  cases found : StatementText.spaces closing with
  | none => rfl
  | some rest =>
    have left : rest = [] ∨ rest = [';'] := by
      cases closing with
      | nil => cases found
      | cons c closing =>
        rw [StatementText.spaces] at found
        split at found
        · next space =>
          rw [← List.dropWhile_cons_of_pos space, Option.some.injEq] at found
          rw [← found]
          exact dropWhile_closing closed
        · cases found
    rcases left with rfl | rfl
    · rfl
    · exact semicolon

theorem readDeallocate_eq {deallocate rest : Text} (k : Keyword "DEALLOCATE" deallocate)
    (begun : Begun rest) : readDeallocate t (deallocate ++ rest) =
      ((spaced "PREPARE".toList rest).bind fun rest =>
        (lastAll rest).orElse fun _ => lastIdent t rest).or
          ((lastAll rest).orElse fun _ => lastIdent t rest) := by
  rw [readDeallocate, skip_keyword k ⟨_, _, rfl, rfl⟩, k.spaced begun, Option.bind_some]
  exact findSome?_pair _ _ _

theorem begun_prepare {prepare : Text} (tables : WordTables t)
    (prepare_ : prepare = [] ∨ Keyword "PREPARE" prepare) (rest : Text) :
    Begun (prepare ++ (id.spelling ++ rest)) := by
  rcases prepare_ with rfl | k
  · exact begun_spelling tables id rest
  · exact k.begun ⟨_, _, rfl, rfl⟩

theorem readDeallocate_spelling (tables : WordTables t) (plain : id.Plain)
    (spelled : DeallocateSpelling id sql) : readDeallocate t sql = some id.spelling := by
  cases spelled with
  | @intro deallocate prepare closing deallocate_ prepare_ closing_ =>
    rw [readDeallocate_eq deallocate_ (begun_prepare tables prepare_ closing)]
    rcases prepare_ with rfl | k
    · rw [List.nil_append, last_spelling tables plain closing_]
      by_cases word : id.spelling.map foldCase = "PREPARE".toList
      · rw [spaced, keyword_append word, Option.bind_some, last_closing tables closing_]
        rfl
      · rw [spaced_spelling tables id rfl (by decide) word closing_]
        rfl
    · rw [k.spaced (begun_spelling tables id closing), Option.bind_some,
        last_spelling tables plain closing_]
      rfl

theorem readDeallocate_not_plain (tables : WordTables t) (other : ¬id.Plain)
    (spelled : DeallocateSpelling id sql) : readDeallocate t sql = none := by
  cases spelled with
  | @intro deallocate prepare closing deallocate_ prepare_ closing_ =>
    rw [readDeallocate_eq deallocate_ (begun_prepare tables prepare_ closing)]
    rcases prepare_ with rfl | k
    · have word : id.spelling.map foldCase ≠ "PREPARE".toList := fold_not_plain id other rfl
      rw [List.nil_append, last_not_plain tables other closing_,
        spaced_spelling tables id rfl (by decide) word closing_]
      rfl
    · rw [k.spaced (begun_spelling tables id closing), Option.bind_some,
        last_not_plain tables other closing_, Option.none_or]
      have every : lastAll (prepare ++ (id.spelling ++ closing)) = none := by
        rw [lastAll, k.none (by decide) (by decide)]
      obtain ⟨c, later, spelled, solid, apart⟩ := id.begun tables
      obtain ⟨read, behind, reads, g, rfl⟩ := k
      have nonempty : read ≠ [] := by
        rintro rfl
        cases reads
      have stops : ∀ a ∈ (behind ++ c :: (later ++ closing)).head?, t.isWord a = false := by
        obtain ⟨b, run, rfl⟩ := List.exists_cons_of_ne_nil g.1
        intro a member
        obtain rfl := Option.some.inj member
        exact tables.space _ (g.2 _ (by simp))
      rw [every, spelled, List.append_assoc]
      exact lastIdent_word reads nonempty rfl g.2 solid apart stops

end Reading

/-! ## Under which name -/

/-- The name that DEALLOCATE looks for. -/
def deallocatedName (raw : Text) : String := String.ofList (Trim.trim (· = '"') raw)

section Names

variable {t : TextTables}

theorem Identifier.bare_ends {name : Text} (bare : '"' ∉ name) :
    Trim.Solid (fun c => decide (c = '"')) name := by
  have other : ∀ c ∈ name, decide (c = '"') = false :=
    fun c member => decide_eq_false fun same => bare (same ▸ member)
  exact ⟨fun c member => other c (List.mem_of_mem_head? member),
    fun c member => other c (List.mem_of_getLast? member)⟩

theorem strip_identifier (tables : WordTables t) (id : Identifier t) :
    Endpoint.strip id.spelling = id.spelling := by
  refine Trim.trim_eq_self_iff.mpr ⟨?_, id.solid_last tables⟩
  have begun := begun_spelling tables id []
  rw [List.append_nil] at begun
  exact begun

/-- Of a plain name the two agree if it is quoted, or folding leaves it alone. -/
theorem identifier_eq_iff (tables : WordTables t) (id : Identifier t) (plain : id.Plain) :
    identifier t id.spelling = deallocatedName id.spelling ↔
      id.isQuoted = true ∨ t.lower id.spelling = id.spelling := by
  rw [identifier, strip_identifier tables, deallocatedName]
  cases id with
  | unquoted name some_ letters =>
    have unquoted : '"' ∉ name := by
      intro quote
      rcases letters '"' quote with word | same
      · rw [tables.ascii '"' (by decide)] at word
        cases word
      · cases same
    have head : name.head? ≠ some '"' := fun quote => unquoted (List.mem_of_mem_head? quote)
    change (if name.head? = some '"' ∧ name.getLast? = some '"' ∧ 2 ≤ name.length then _ else
      String.ofList (t.lower name)) = String.ofList (Trim.trim _ name) ↔ _
    rw [if_neg fun both => head both.1, Trim.trim_eq_self_iff.mpr (Identifier.bare_ends unquoted)]
    constructor
    · exact fun same => Or.inr (String.ofList_injective same)
    · rintro (quoted | same)
      · cases quoted
      · exact congrArg String.ofList same
  | quoted name some_ =>
    have bare : '"' ∉ name := plain
    refine iff_of_true ?_ (Or.inl rfl)
    have text :
        (Identifier.quoted name some_ : Identifier t).spelling = '"' :: (name ++ ['"']) := by
      change '"' :: (Endpoint.doubled '"' name ++ ['"']) = _
      rw [Endpoint.doubled_eq_self bare]
    have last : ('"' :: (name ++ ['"'])).getLast? = some '"' := by
      rw [← List.cons_append, List.getLast?_concat]
    have quote : Trim.Blank (fun c => decide (c = '"')) ['"'] := by simp [Trim.Blank]
    have trimmed : Trim.trim (fun c => decide (c = '"')) ('"' :: (name ++ ['"'])) = name :=
      Trim.trim_of_solid quote (Identifier.bare_ends bare) quote
    rw [text, if_pos ⟨rfl, last, by simp⟩, trimmed, List.tail_cons, List.dropLast_concat]

end Names

section OneNamespace

variable (t : TextTables) (links : Links Value Cell)

/-- EXECUTE by its text, where this is the registry. -/
def executeText (w : Stored Value Cell) (d : Registry Value Cell) (sql : Text) :
    Option (Except Failure (Prepared Value Cell)) :=
  (readExecute t sql).map fun (raw, arguments) =>
    executeStatement t links (w.withState { w.state with statements := d }) raw arguments

def deallocateText (d : Registry Value Cell) (sql : Text) :
    Option (Registry Value Cell × Option Failure) :=
  (readDeallocate t sql).map (deallocate t d)

/-- The three statements find one entry by one spelling of its name. -/
structure OneNamespace (events : List (NameEvent Value Cell)) (w : Stored Value Cell)
    (name : String) (prepare execute deallocate : Text) : Prop where
  found : ∀ statement,
    executeText t links w (registry t (events ++ [.prepare prepare statement])) execute =
      some (.ok (.execution statement []))
  dropped : ∀ statement, ∃ d,
    deallocateText t (registry t (events ++ [.prepare prepare statement])) deallocate =
      some (d, none)
  gone : ∀ statement, ∃ e,
    executeText t links w
        (registry t (events ++ [.prepare prepare statement, .deallocate deallocate])) execute =
      some (.error (.error e)) ∧ e.sqlstate = "26000"
  absent : name ∉ events.filterMap (NameEvent.creates t) → ∃ e,
    deallocateText t (registry t events) deallocate = some (registry t events, some (.error e)) ∧
      e.sqlstate = "26000"

variable {t} {links}

theorem registry_append (events : List (NameEvent Value Cell)) (e : NameEvent Value Cell) :
    registry t (events ++ [e]) = e.step t (registry t events) := by
  rw [registry, List.foldl_append]
  rfl

/-- EXECUTE of a name without arguments. -/
theorem executeText_eq {raw sql : Text} (read : readExecute t sql = some (raw, []))
    (w : Stored Value Cell) (d : Registry Value Cell) :
    executeText t links w d sql = some (match d.get? (identifier t raw) with
      | none => .error (.error (noStatement (identifier t raw)))
      | some statement => .ok (.execution statement [])) := by
  rw [executeText, read]
  change some (executeStatement t links (w.withState { w.state with statements := d }) raw []) = _
  rw [executeStatement, World.state_withState]
  cases d.get? (identifier t raw) <;> rfl

theorem deallocate_one {d : Registry Value Cell} {raw : Text}
    (one : ¬(t.upper raw = "ALL".toList ∧ raw.head? ≠ some '"')) :
    deallocate t d raw = match d.get? (deallocatedName raw) with
      | none => (d, some (.error (noStatement (deallocatedName raw))))
      | some _ => (d.erase (deallocatedName raw), none) := by
  rw [deallocate, if_neg one]
  rfl

/-- Only the name it takes off is not found any more. -/
theorem get?_deallocate_one {d : Registry Value Cell} {raw : Text}
    (one : ¬(t.upper raw = "ALL".toList ∧ raw.head? ≠ some '"')) (name : String) :
    (deallocate t d raw).1.get? name =
      if name = deallocatedName raw then none else d.get? name := by
  rw [deallocate_one one]
  cases held : d.get? (deallocatedName raw) with
  | some _ => exact Dict.get?_erase ..
  | none =>
    by_cases same : name = deallocatedName raw
    · rw [if_pos same, same, held]
    · rw [if_neg same]

theorem Identifier.not_all {id : Identifier t}
    (notAll : id.isQuoted = true ∨ t.upper id.spelling ≠ "ALL".toList) :
    ¬(t.upper id.spelling = "ALL".toList ∧ id.spelling.head? ≠ some '"') := by
  rintro ⟨all, unquoted⟩
  rcases notAll with quoted | other
  · cases id with
    | unquoted name _ _ => cases quoted
    | quoted name _ => exact unquoted rfl
  · exact other all

theorem registry_prepare (tables : WordTables t) {id : Identifier t} (plain : id.Plain)
    {prepare : Text} (prepare_ : PrepareSpelling id prepare)
    (events : List (NameEvent Value Cell)) (statement : Prepared Value Cell) :
    registry t (events ++ [.prepare prepare statement]) =
      (registry t events).set (identifier t id.spelling) statement := by
  obtain ⟨inner, whole⟩ := readPrepare_spelling tables plain prepare_
  have created : preparedName t prepare = some (identifier t id.spelling) := by
    rw [preparedName, whole]
    rfl
  rw [registry_append]
  simp only [NameEvent.step, created]

theorem registry_deallocate (tables : WordTables t) {id : Identifier t} (plain : id.Plain)
    {deallocate : Text} (deallocate_ : DeallocateSpelling id deallocate)
    (events : List (NameEvent Value Cell)) :
    registry t (events ++ [.deallocate deallocate]) =
      (Protocols.deallocate t (registry t events) id.spelling).1 := by
  rw [registry_append]
  simp only [NameEvent.step, readDeallocate_spelling tables plain deallocate_]

theorem deallocateText_eq (tables : WordTables t) {id : Identifier t} (plain : id.Plain)
    {deallocate : Text} (deallocate_ : DeallocateSpelling id deallocate)
    (d : Registry Value Cell) :
    deallocateText t d deallocate = some (Protocols.deallocate t d id.spelling) := by
  rw [deallocateText, readDeallocate_spelling tables plain deallocate_]
  rfl

/-- PREPARE, EXECUTE and DEALLOCATE share one entry, in every registry that a run leads to,
if and only if the name is plain, and is quoted or in lower case. -/
theorem one_namespace_iff (tables : WordTables t) (id : Identifier t)
    (notAll : id.isQuoted = true ∨ t.upper id.spelling ≠ "ALL".toList)
    (events : List (NameEvent Value Cell)) (w : Stored Value Cell)
    {prepare execute deallocate : Text} (prepare_ : PrepareSpelling id prepare)
    (execute_ : ExecuteSpelling id execute) (deallocate_ : DeallocateSpelling id deallocate) :
    OneNamespace t links events w (identifier t id.spelling) prepare execute deallocate ↔
      id.Plain ∧ (id.isQuoted = true ∨ t.lower id.spelling = id.spelling) := by
  by_cases plain : id.Plain
  · have one := Identifier.not_all notAll
    have stored := registry_prepare tables plain prepare_ events
    have both : ∀ statement,
        registry t (events ++ [.prepare prepare statement, .deallocate deallocate]) =
          (Protocols.deallocate t ((registry t events).set (identifier t id.spelling) statement)
            id.spelling).1 := by
      intro statement
      rw [← List.singleton_append, ← List.append_assoc,
        registry_deallocate tables plain deallocate_, stored]
    have executed : ∀ d : Registry Value Cell, executeText t links w d execute = _ :=
      executeText_eq (readExecute_spelling tables plain execute_) w
    have dropped : ∀ d : Registry Value Cell,
        deallocateText t d deallocate = some (Protocols.deallocate t d id.spelling) :=
      deallocateText_eq tables plain deallocate_
    rw [← identifier_eq_iff tables id plain]
    constructor
    · intro shares
      refine ⟨plain, ?_⟩
      by_contra apart
      -- what is left under the folded name is still there
      obtain ⟨e, unfound, _⟩ := shares.gone (.copy [])
      rw [both, executed, get?_deallocate_one one, if_neg apart, Dict.get?_set,
        if_pos rfl] at unfound
      cases unfound
    · rintro ⟨_, same⟩
      refine ⟨fun statement => ?_, fun statement => ?_, fun statement => ?_, fun never => ?_⟩
      · rw [stored, executed, Dict.get?_set, if_pos rfl]
      · rw [stored, dropped, deallocate_one one, Dict.get?_set, if_pos same.symm]
        exact ⟨_, rfl⟩
      · rw [both, executed, get?_deallocate_one one, if_pos same]
        exact ⟨_, rfl, rfl⟩
      · have missing : (registry t events).get? (deallocatedName id.spelling) = none := by
          by_contra held
          rw [← same] at held
          exact never (created_of_registry held)
        rw [dropped, deallocate_one one, missing]
        exact ⟨_, rfl, rfl⟩
  · refine iff_of_false (fun shares => ?_) fun condition => plain condition.1
    obtain ⟨d, done⟩ := shares.dropped (.copy [])
    rw [deallocateText, readDeallocate_not_plain tables plain deallocate_] at done
    cases done

end OneNamespace

section Spelled

variable {t : TextTables} (id : Identifier t)

theorem prepareSpelling :
    PrepareSpelling id ("PREPARE ".toList ++ (id.spelling ++ " AS SELECT 1".toList)) := by
  have prepare : Keyword "PREPARE" "PREPARE ".toList :=
    ⟨"PREPARE".toList, [' '], rfl, ⟨by simp, by simp [isSpace]⟩, rfl⟩
  have as : Keyword "AS" "AS ".toList :=
    ⟨"AS".toList, [' '], rfl, ⟨by simp, by simp [isSpace]⟩, rfl⟩
  have gap : Gap [' '] := ⟨by simp, by simp [isSpace]⟩
  have query : Begun "SELECT 1".toList := begun_cons rfl _
  exact .intro prepare gap as (by decide) query

theorem executeSpelling : ExecuteSpelling id ("EXECUTE ".toList ++ (id.spelling ++ [])) := by
  have execute : Keyword "EXECUTE" "EXECUTE ".toList :=
    ⟨"EXECUTE".toList, [' '], rfl, ⟨by simp, by simp [isSpace]⟩, rfl⟩
  exact .intro execute .nothing

theorem deallocateSpelling :
    DeallocateSpelling id ("DEALLOCATE ".toList ++ (id.spelling ++ [])) := by
  have deallocate : Keyword "DEALLOCATE" "DEALLOCATE ".toList :=
    ⟨"DEALLOCATE".toList, [' '], rfl, ⟨by simp, by simp [isSpace]⟩, rfl⟩
  exact .intro deallocate (Or.inl rfl) .nothing

end Spelled

def capitalName : Identifier Endpoint.asciiTables :=
  .unquoted "Foo".toList (by decide) (by simp [Endpoint.asciiTables])

def smallName : Identifier Endpoint.asciiTables :=
  .unquoted "foo".toList (by decide) (by simp [Endpoint.asciiTables])

/-- `PREPARE Foo`, and then `DEALLOCATE Foo`: there is no such name, and it stays. -/
theorem capital_name_stays :
    PrepareSpelling capitalName "PREPARE Foo AS SELECT 1".toList ∧
    DeallocateSpelling capitalName "DEALLOCATE Foo".toList ∧
    ∃ d : Registry String Unit,
      registry Endpoint.asciiTables
        [.prepare "PREPARE Foo AS SELECT 1".toList (.callback "SELECT 1".toList [])] = d ∧
      deallocateText Endpoint.asciiTables d "DEALLOCATE Foo".toList =
        some (d, some (.error (noStatement "Foo"))) ∧
      executeText Endpoint.asciiTables noLinks connected d "EXECUTE Foo".toList =
        some (.ok (.execution (.callback "SELECT 1".toList []) [])) :=
  ⟨prepareSpelling capitalName, deallocateSpelling capitalName, _, rfl, rfl, rfl⟩

theorem small_name_shared :
    OneNamespace Endpoint.asciiTables noLinks [] connected "foo"
      "PREPARE foo AS SELECT 1".toList "EXECUTE foo".toList "DEALLOCATE foo".toList := by
  have plain : '$' ∉ "foo".toList := by decide
  have one : Endpoint.asciiTables.upper "foo".toList ≠ "ALL".toList := by decide
  exact (one_namespace_iff wordTables_ascii smallName (Or.inr one) [] connected
    (prepareSpelling smallName) (executeSpelling smallName)
    (deallocateSpelling smallName)).mpr ⟨plain, Or.inr rfl⟩

end PgMimic.Protocols
