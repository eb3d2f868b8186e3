import PgMimic.Protocols
import PgMimic.Lib.Trim

/-!
# Several statements in one Query

`split_statements` cuts a text at the semicolons that the tokenizer finds, and the
statements are handed on one after another as the client wrote them. What is a statement
is judged by the characters of a slice and not by its tokens, so that a comment on its own
is one.
-/

namespace PgMimic.Batches

open PgMimic.Copy (Text)
open PgMimic.Endpoint (TextTables asciiTables)
open PgMimic.Protocols

/-! ## The tokenizer -/

/-- A token with the offsets of its first and its last character. -/
structure Token where
  semicolon : Bool
  start : Nat
  stop : Nat
deriving DecidableEq

/-- What is relied on of sqlglot's tokenizer: the offsets of a token are exact. It does not
begin with white space, and comments are not among the tokens. -/
structure Tokenizer where
  tokenize : Text → Option (List Token)
  within : ∀ {sql tokens}, tokenize sql = some tokens →
    ∀ token ∈ tokens, token.start ≤ token.stop ∧ token.stop < sql.length
  ordered : ∀ {sql tokens}, tokenize sql = some tokens →
    tokens.Pairwise fun earlier later => earlier.stop < later.start
  visible : ∀ {sql tokens}, tokenize sql = some tokens →
    ∀ token ∈ tokens, ∀ c ∈ sql[token.start]?, isSpace c = false
  exact_semicolon : ∀ {sql tokens}, tokenize sql = some tokens →
    ∀ token ∈ tokens, token.semicolon = true →
      token.stop = token.start ∧ sql[token.start]? = some ';'

/-- The tokens that `split_statements` looks for. -/
def semicolonsOf (tokens : List Token) : List Semicolon :=
  (tokens.filter Token.semicolon).map fun token => ⟨token.start, token.stop⟩

def Tokenizer.semicolons (z : Tokenizer) (sql : Text) : Option (List Semicolon) :=
  (z.tokenize sql).map semicolonsOf

/-! ## The statements of a text -/

/-- The slices between the semicolons, from where to where. -/
def slices (length start : Nat) : List Token → List (Nat × Nat)
  | [] => [(start, length)]
  | token :: later =>
    if token.semicolon then (start, token.start) :: slices length (token.stop + 1) later
    else slices length start later

def sliceText (sql : Text) (slice : Nat × Nat) : Text := (sql.take slice.2).drop slice.1

/-- A token stands in a slice. -/
def Holds (tokens : List Token) (slice : Nat × Nat) : Prop :=
  ∃ token ∈ tokens, token.semicolon = false ∧ slice.1 ≤ token.start ∧ token.stop < slice.2

instance (tokens : List Token) (slice : Nat × Nat) : Decidable (Holds tokens slice) :=
  inferInstanceAs (Decidable (∃ token ∈ tokens, _))

/-- The slices with a token, as they are written. -/
def statementsOf (sql : Text) (tokens : List Token) : List Text :=
  ((slices sql.length 0 tokens).filter fun slice => Holds tokens slice).map (sliceText sql)

def Filler (text : Text) : Prop := ∀ c ∈ text, c = ';' ∨ isSpace c = true

/-- What is handed on is the statements, but a lone one may keep the semicolons around it. -/
def HandedOn (handed : List Text) : List Text → Prop
  | [] => handed = []
  | [lone] => ∃ before after, Filler before ∧ Filler after ∧ handed = [before ++ lone ++ after]
  | statements => handed = statements

section Handling

variable {Value Stmt Portal Cell : Type} (t : TextTables) (s : Session Value Stmt Portal Cell)

/-- A Query without statements is an empty one. -/
def answered (w : W Value Stmt Portal) : List Text → Handled Value Stmt Portal
  | [] => (w, [.emptyQueryResponse], none)
  | statements => executeAll t s w statements

end Handling

/-- What a Query is handled as, whatever the session is. -/
def HandledAs (z : Tokenizer) (sql : Text) (statements : List Text) : Prop :=
  ∀ (Value Stmt Portal Cell : Type) (t : TextTables) (s : Session Value Stmt Portal Cell)
    (w : W Value Stmt Portal),
    handleSimpleQuery t s z.semicolons w sql = answered t s w statements

/-- The statements of a text, and nothing else, are executed for it. -/
def Batched (z : Tokenizer) (sql : Text) (tokens : List Token) : Prop :=
  ∃ handed, HandedOn handed (statementsOf sql tokens) ∧ HandledAs z sql handed

/-! ## Slices -/

theorem strip_eq_nil_iff_blank (text : Text) :
    Endpoint.strip text = [] ↔ Trim.Blank isSpace text := by
  rw [Endpoint.strip_eq_nil_iff, List.dropWhile_eq_nil_iff]
  rfl

theorem pieces_eq (sql : Text) (start : Nat) (tokens : List Token) :
    pieces sql start (semicolonsOf tokens) =
      (slices sql.length start tokens).map (sliceText sql) := by
  induction tokens generalizing start with
  | nil =>
    have whole : sql.drop start = sliceText sql (start, sql.length) := by
      rw [sliceText, List.take_length]
    exact congrArg (· :: []) whole
  | cons token later ih =>
    cases semicolon : token.semicolon with
    | true =>
      rw [slices, if_pos semicolon, semicolonsOf, List.filter_cons_of_pos semicolon, List.map_cons,
        pieces, List.map_cons]
      exact congrArg _ (ih (token.stop + 1))
    | false =>
      rw [slices, if_neg (by simp [semicolon]), semicolonsOf,
        List.filter_cons_of_neg (by simp [semicolon])]
      exact ih start

theorem slices_ne_nil (length start : Nat) (tokens : List Token) :
    slices length start tokens ≠ [] := by
  induction tokens generalizing start with
  | nil => exact List.cons_ne_nil _ _
  | cons token later ih =>
    unfold slices
    split
    · exact List.cons_ne_nil _ _
    · exact ih start

/-- The slices with the semicolons between them are the text. -/
theorem drop_eq_intercalate {sql : Text} {tokens : List Token} (start : Nat)
    (ahead : ∀ token ∈ tokens, start ≤ token.start)
    (ordered : tokens.Pairwise fun earlier later => earlier.stop < later.start)
    (exact_semicolon : ∀ token ∈ tokens, token.semicolon = true →
      token.stop = token.start ∧ sql[token.start]? = some ';') :
    sql.drop start =
      [';'].intercalate ((slices sql.length start tokens).map (sliceText sql)) := by
  induction tokens generalizing start with
  | nil =>
    rw [slices, List.map_singleton, List.intercalate_singleton, sliceText, List.take_length]
  | cons token later ih =>
    obtain ⟨apart, ordered'⟩ := List.pairwise_cons.mp ordered
    have rest := fun next member => exact_semicolon next (List.mem_cons_of_mem _ member)
    cases semicolon : token.semicolon with
    | true =>
      obtain ⟨single, written⟩ := exact_semicolon token List.mem_cons_self semicolon
      have next := ih (token.stop + 1) (fun next member => apart next member) ordered' rest
      obtain ⟨head, tail, listed⟩ : ∃ head tail,
          (slices sql.length (token.stop + 1) later).map (sliceText sql) = head :: tail :=
        List.exists_cons_of_ne_nil fun none =>
          slices_ne_nil _ _ _ (List.map_eq_nil_iff.mp none)
      have cut : sql.drop start =
          sliceText sql (start, token.start) ++ ';' :: sql.drop (token.stop + 1) := by
        obtain ⟨bound, here⟩ := List.getElem?_eq_some_iff.mp written
        rw [single, ← here, List.getElem_cons_drop, sliceText]
        have := List.take_append_drop token.start sql
        conv_lhs => rw [← this]
        exact List.drop_append_of_le_length (by
          rw [List.length_take]
          have := ahead token List.mem_cons_self
          omega)
      rw [slices, if_pos semicolon, List.map_cons, listed, List.intercalate_cons_cons, ← listed,
        ← next, cut]
      simp only [List.append_assoc, List.singleton_append]
    | false =>
      rw [slices, if_neg (by simp [semicolon])]
      exact ih start (fun next member => ahead next (List.mem_cons_of_mem _ member)) ordered' rest

/-! ## Texts between semicolons -/

theorem filler_of_blank {text : Text} (blank : Trim.Blank isSpace text) : Filler text :=
  fun c member => Or.inr (blank c member)

theorem filler_append {text text' : Text} (first : Filler text) (second : Filler text') :
    Filler (text ++ text') :=
  fun c member => (List.mem_append.mp member).elim (first c) (second c)

theorem filler_semicolon : Filler [';'] := fun _ member => Or.inl (List.mem_singleton.mp member)

theorem filler_intercalate {texts : List Text} (blank : ∀ text ∈ texts, Trim.Blank isSpace text) :
    Filler ([';'].intercalate texts) := by
  induction texts with
  | nil => exact nofun
  | cons text later ih =>
    have first := filler_of_blank (blank text List.mem_cons_self)
    have rest := ih fun next member => blank next (List.mem_cons_of_mem _ member)
    cases later with
    | nil =>
      rw [List.intercalate_singleton]
      exact first
    | cons next later =>
      rw [List.intercalate_cons_cons]
      exact filler_append (filler_append first filler_semicolon) rest

/-- Around the only text that is not blank there are only semicolons and white space. -/
theorem intercalate_lone {texts : List Text} {lone : Text}
    (only : texts.filter (fun text => Endpoint.strip text ≠ []) = [lone]) :
    ∃ before after, Filler before ∧ Filler after ∧
      [';'].intercalate texts = before ++ lone ++ after := by
  induction texts with
  | nil => cases only
  | cons text later ih =>
    by_cases blank : Endpoint.strip text = []
    · rw [List.filter_cons_of_neg (by simpa using blank)] at only
      obtain ⟨before, after, filler, filler', split⟩ := ih only
      cases later with
      | nil => cases only
      | cons next later =>
        refine ⟨text ++ [';'] ++ before, after, ?_, filler', ?_⟩
        · have first := filler_of_blank ((strip_eq_nil_iff_blank text).mp blank)
          exact filler_append (filler_append first filler_semicolon) filler
        · rw [List.intercalate_cons_cons, split]
          simp only [List.append_assoc]
    · rw [List.filter_cons_of_pos (by simpa using blank)] at only
      obtain ⟨rfl, none⟩ := List.cons.inj only
      have blanks : ∀ next ∈ later, Trim.Blank isSpace next := fun next member => by
        have := List.filter_eq_nil_iff.mp none next member
        exact (strip_eq_nil_iff_blank next).mp (by simpa using this)
      cases later with
      | nil => exact ⟨[], [], nofun, nofun, by simp⟩
      | cons next later =>
        refine ⟨[], [';'] ++ [';'].intercalate (next :: later), nofun,
          filler_append filler_semicolon (filler_intercalate blanks), ?_⟩
        rw [List.intercalate_cons_cons, List.nil_append, List.append_assoc]

/-! ## What a Query hands on -/

/-- A token shows in its slice. -/
theorem strip_of_holds {z : Tokenizer} {sql : Text} {tokens : List Token}
    (accepted : z.tokenize sql = some tokens) {slice : Nat × Nat} (holds : Holds tokens slice) :
    Endpoint.strip (sliceText sql slice) ≠ [] := by
  obtain ⟨token, member, -, low, high⟩ := holds
  obtain ⟨forward, bound⟩ := z.within accepted token member
  have inside : token.start < sql.length := by omega
  have first : sql[token.start]? = some sql[token.start] := List.getElem?_eq_getElem inside
  intro blank
  have shown : sql[token.start] ∈ sliceText sql slice := by
    refine List.mem_of_getElem? (i := token.start - slice.1) ?_
    rw [sliceText, List.getElem?_drop, Nat.add_sub_cancel' low, List.getElem?_take_of_lt (by omega),
      first]
  have space := (strip_eq_nil_iff_blank _).mp blank _ shown
  rw [z.visible accepted token member _ first] at space
  cases space

section Handed

variable (z : Tokenizer) (sql : Text)

/-- The statements that `_handle_simple_query` goes through. -/
def handed : List Text :=
  if Endpoint.strip sql = [] then [] else splitStatements z.semicolons sql

theorem splitStatements_ne_nil : splitStatements z.semicolons sql ≠ [] := by
  unfold splitStatements
  cases z.semicolons sql with
  | none => exact List.cons_ne_nil _ _
  | some tokens =>
    dsimp only
    split
    · rename_i several
      exact List.ne_nil_of_length_pos (by omega)
    · exact List.cons_ne_nil _ _

theorem handledAs_handed : HandledAs z sql (handed z sql) := by
  intro Value Stmt Portal Cell t s w
  unfold handleSimpleQuery handed
  split
  · rfl
  · cases split : splitStatements z.semicolons sql with
    | nil => exact (splitStatements_ne_nil z sql split).elim
    | cons first later => rfl

variable {z sql}

theorem strip_of_handed {statement : Text} (member : statement ∈ handed z sql) :
    Endpoint.strip statement ≠ [] := by
  unfold handed at member
  split at member
  · cases member
  · rename_i shown
    unfold splitStatements at member
    cases found : z.semicolons sql with
    | none =>
      simp only [found, List.mem_singleton] at member
      rwa [member]
    | some tokens =>
      simp only [found] at member
      split at member
      · exact of_decide_eq_true (List.mem_filter.mp member).2
      · rwa [List.mem_singleton.mp member]

/-- What is handed on, by the slices that are not blank. -/
theorem handed_eq {tokens : List Token} (accepted : z.tokenize sql = some tokens)
    (shown : Endpoint.strip sql ≠ []) :
    handed z sql =
      if 1 < ((slices sql.length 0 tokens).filter
          fun slice => Endpoint.strip (sliceText sql slice) ≠ []).length then
        ((slices sql.length 0 tokens).filter
          fun slice => Endpoint.strip (sliceText sql slice) ≠ []).map (sliceText sql)
      else [sql] := by
  have found : z.semicolons sql = some (semicolonsOf tokens) := by
    rw [Tokenizer.semicolons, accepted]
    rfl
  rw [handed, if_neg shown, splitStatements, found]
  dsimp only
  rw [pieces_eq, List.filter_map, List.length_map]
  rfl

end Handed

/-! ## A session that tells what it is given -/

/-- Every text is a statement without rows, whose column bears its text. -/
def recording : Session Unit Text Unit Unit where
  prepare _ sql := .ok sql
  sql := id
  isCopy _ := false
  describe _ statement := .ok (some [⟨statement, 0⟩])
  bind _ _ := .ok ()
  copyOf _ := none
  execute w _ _ := (w, .ok ([], false))
  copy w _ := (w, .ok 0)
  encodeValue _ _ := .ok []

/-- What was prepared, from the answers. -/
def recorded : List Reply → List Text :=
  List.filterMap fun
    | .rowDescription [column] => some column.name
    | _ => none

def unconnected : W Unit Text Unit :=
  ⟨Connection.fresh 0 "" ∅, ⟨fun _ => none, ∅, 5432⟩, [], []⟩

theorem execute_recording {statement : Text} (shown : Endpoint.strip statement ≠ []) :
    executeOneSimpleStatement asciiTables recording unconnected statement =
      (unconnected, [.rowDescription [⟨statement, 0⟩],
        .commandComplete (StatementText.commandTag asciiTables statement 0)], none) := by
  have accepted : refused asciiTables unconnected statement = false := rfl
  have tagged : (if recording.sql statement = [] then statement else recording.sql statement) =
      statement := by
    split
    · rfl
    · rfl
  have run : executeOneSimpleStatement asciiTables recording unconnected statement =
      (unconnected, [.rowDescription [⟨statement, 0⟩],
        .commandComplete (StatementText.commandTag asciiTables
          (if recording.sql statement = [] then statement else recording.sql statement) 0)],
        none) := by
    rw [executeOneSimpleStatement, accepted, if_neg nofun, if_neg shown]
    rfl
  rw [run, tagged]

theorem recorded_answered {statements : List Text}
    (shown : ∀ statement ∈ statements, Endpoint.strip statement ≠ []) :
    recorded (answered asciiTables recording unconnected statements).2.1 = statements := by
  have all : (executeAll asciiTables recording unconnected statements).1 = unconnected ∧
      recorded (executeAll asciiTables recording unconnected statements).2.1 = statements := by
    induction statements with
    | nil => exact ⟨rfl, rfl⟩
    | cons statement later ih =>
      obtain ⟨same, rest⟩ := ih fun next member => shown next (List.mem_cons_of_mem _ member)
      have first := execute_recording (shown statement List.mem_cons_self)
      simp only [executeAll, first]
      exact ⟨same, congrArg (statement :: ·) rest⟩
  cases statements with
  | nil => rfl
  | cons statement later => exact all.2

/-- No two lists of statements that show are handled alike by every session. -/
theorem handledAs_inj {z : Tokenizer} {sql : Text} {statements statements' : List Text}
    (first : HandledAs z sql statements) (second : HandledAs z sql statements')
    (shown : ∀ statement ∈ statements, Endpoint.strip statement ≠ [])
    (shown' : ∀ statement ∈ statements', Endpoint.strip statement ≠ []) :
    statements = statements' := by
  have same := (first _ _ _ _ asciiTables recording unconnected).symm.trans
    (second _ _ _ _ asciiTables recording unconnected)
  rw [← recorded_answered shown, same, recorded_answered shown']

/-! ## Which texts are split right -/

section Split

variable {z : Tokenizer} {sql : Text} {tokens : List Token}

theorem strip_of_statement (accepted : z.tokenize sql = some tokens) {statement : Text}
    (member : statement ∈ statementsOf sql tokens) : Endpoint.strip statement ≠ [] := by
  obtain ⟨slice, listed, rfl⟩ := List.mem_map.mp member
  exact strip_of_holds accepted (of_decide_eq_true (List.mem_filter.mp listed).2)

theorem strip_around {before lone after : Text} (shown : Endpoint.strip lone ≠ []) :
    Endpoint.strip (before ++ lone ++ after) ≠ [] := by
  intro blank
  have all := (strip_eq_nil_iff_blank _).mp blank
  exact shown ((strip_eq_nil_iff_blank _).mpr fun c member =>
    all c (List.mem_append_left _ (List.mem_append_right _ member)))

theorem strip_of_handedOn {statements handed : List Text} (on : HandedOn handed statements)
    (shown : ∀ statement ∈ statements, Endpoint.strip statement ≠ []) :
    ∀ statement ∈ handed, Endpoint.strip statement ≠ [] := by
  match statements with
  | [] =>
    obtain rfl : handed = [] := on
    exact nofun
  | [lone] =>
    obtain ⟨before, after, _, _, rfl⟩ := on
    intro statement member
    rw [List.mem_singleton.mp member]
    exact strip_around (shown lone (List.mem_singleton.mpr rfl))
  | first :: second :: later =>
    obtain rfl : handed = first :: second :: later := on
    exact shown

theorem batched_iff_handedOn (accepted : z.tokenize sql = some tokens) :
    Batched z sql tokens ↔ HandedOn (handed z sql) (statementsOf sql tokens) := by
  constructor
  · rintro ⟨statements, on, handled⟩
    have shown := strip_of_handedOn on fun statement => strip_of_statement accepted
    rw [handledAs_inj (handledAs_handed z sql) handled (fun statement => strip_of_handed) shown]
    exact on
  · exact fun on => ⟨handed z sql, on, handledAs_handed z sql⟩

/-- The slices with a token, and the slices that show. -/
theorem holds_sublist (accepted : z.tokenize sql = some tokens) (listed : List (Nat × Nat)) :
    (listed.filter fun slice => Holds tokens slice).Sublist
      (listed.filter fun slice => Endpoint.strip (sliceText sql slice) ≠ []) := by
  have both : listed.filter (fun slice => Holds tokens slice) =
      (listed.filter fun slice => Endpoint.strip (sliceText sql slice) ≠ []).filter
        fun slice => Holds tokens slice := by
    rw [List.filter_filter]
    refine List.filter_congr fun slice _ => ?_
    by_cases holds : Holds tokens slice
    · simp [holds, strip_of_holds accepted holds]
    · simp [holds]
  rw [both]
  exact List.filter_sublist

/-- A text shows where one of its slices does. -/
theorem strip_of_slice {slice : Nat × Nat} (shown : Endpoint.strip (sliceText sql slice) ≠ []) :
    Endpoint.strip sql ≠ [] := by
  intro blank
  have all := (strip_eq_nil_iff_blank _).mp blank
  refine shown ((strip_eq_nil_iff_blank _).mpr fun c member => all c ?_)
  exact List.mem_of_mem_take (List.mem_of_mem_drop member)

/-- The slices that show are handed on. They are the statements where each of them is one. -/
theorem handedOn_iff {found visible : List (Nat × Nat)} (sub : found.Sublist visible)
    (lone : ∀ slice, visible = [slice] →
      ∃ before after, Filler before ∧ Filler after ∧ sql = before ++ sliceText sql slice ++ after) :
    HandedOn (if 1 < visible.length then visible.map (sliceText sql) else [sql])
        (found.map (sliceText sql)) ↔
      found = visible ∧ found ≠ [] := by
  have shorter := sub.length_le
  constructor
  · intro on
    match found with
    | [] =>
      have none : (if 1 < visible.length then visible.map (sliceText sql) else [sql]) = [] := on
      split at none
      · have := congrArg List.length none
        rw [List.length_map, List.length_nil] at this
        omega
      · cases none
    | [slice] =>
      refine ⟨sub.eq_of_length_le ?_, List.cons_ne_nil _ _⟩
      obtain ⟨before, after, -, -, single⟩ := on
      have := congrArg List.length single
      split at this
      · rw [List.length_map, List.length_singleton] at this
        rw [this, List.length_singleton]
      · rw [List.length_singleton]
        omega
    | first :: second :: later =>
      have same : (if 1 < visible.length then visible.map (sliceText sql) else [sql]) =
        (first :: second :: later).map (sliceText sql) := on
      have several : 1 < visible.length := by
        rw [List.length_cons, List.length_cons] at shorter
        omega
      refine ⟨sub.eq_of_length_le ?_, List.cons_ne_nil _ _⟩
      rw [if_pos several] at same
      have := congrArg List.length same
      rw [List.length_map, List.length_map] at this
      omega
  · rintro ⟨rfl, some⟩
    match found with
    | [] => exact (some rfl).elim
    | [slice] =>
      obtain ⟨before, after, filler, filler', split⟩ := lone slice rfl
      exact ⟨before, after, filler, filler', congrArg (· :: []) split⟩
    | first :: second :: later =>
      have several : 1 < (first :: second :: later).length := by
        rw [List.length_cons, List.length_cons]
        omega
      rw [if_pos several]
      rfl

/-- A text is split into its statements if and only if every slice that is not white space
has a token, and some slice has one where the text is not all white space. -/
theorem batched_iff (accepted : z.tokenize sql = some tokens) :
    Batched z sql tokens ↔
      (∀ slice ∈ slices sql.length 0 tokens,
        Endpoint.strip (sliceText sql slice) ≠ [] → Holds tokens slice) ∧
      (Endpoint.strip sql ≠ [] → ∃ slice ∈ slices sql.length 0 tokens, Holds tokens slice) := by
  rw [batched_iff_handedOn accepted]
  by_cases shown : Endpoint.strip sql = []
  · have none : (slices sql.length 0 tokens).filter (fun slice => Holds tokens slice) = [] :=
      List.filter_eq_nil_iff.mpr fun slice _ holds =>
        strip_of_slice (strip_of_holds accepted (of_decide_eq_true holds)) shown
    have blank : ∀ slice, Endpoint.strip (sliceText sql slice) ≠ [] → Holds tokens slice :=
      fun slice some => (strip_of_slice some shown).elim
    rw [statementsOf, none, handed, if_pos shown]
    exact ⟨fun _ => ⟨fun slice _ => blank slice, fun some => (some shown).elim⟩, fun _ => rfl⟩
  · have text : sql = [';'].intercalate ((slices sql.length 0 tokens).map (sliceText sql)) :=
      drop_eq_intercalate 0 (fun _ _ => Nat.zero_le _) (z.ordered accepted)
        (z.exact_semicolon accepted)
    have lone : ∀ slice, (slices sql.length 0 tokens).filter
        (fun slice => Endpoint.strip (sliceText sql slice) ≠ []) = [slice] →
        ∃ before after, Filler before ∧ Filler after ∧
          sql = before ++ sliceText sql slice ++ after := by
      intro slice single
      have only : ((slices sql.length 0 tokens).map (sliceText sql)).filter
          (fun text => Endpoint.strip text ≠ []) = [sliceText sql slice] :=
        List.filter_map.trans (congrArg (List.map (sliceText sql)) single)
      obtain ⟨before, after, filler, filler', split⟩ := intercalate_lone only
      exact ⟨before, after, filler, filler', text.trans split⟩
    rw [handed_eq accepted shown, statementsOf,
      handedOn_iff (holds_sublist accepted (slices sql.length 0 tokens)) lone]
    constructor
    · rintro ⟨same, some⟩
      refine ⟨fun slice member visible => ?_, fun _ => ?_⟩
      · have listed : slice ∈ (slices sql.length 0 tokens).filter
            fun slice => Endpoint.strip (sliceText sql slice) ≠ [] :=
          List.mem_filter.mpr ⟨member, decide_eq_true visible⟩
        rw [← same] at listed
        exact of_decide_eq_true (List.mem_filter.mp listed).2
      · obtain ⟨slice, listed⟩ := List.exists_mem_of_ne_nil _ some
        obtain ⟨member, holds⟩ := List.mem_filter.mp listed
        exact ⟨slice, member, of_decide_eq_true holds⟩
    · rintro ⟨each, any⟩
      obtain ⟨slice, member, holds⟩ := any shown
      refine ⟨List.filter_congr fun slice member => decide_eq_decide.mpr ?_, ?_⟩
      · exact ⟨strip_of_holds accepted, each slice member⟩
      · exact List.ne_nil_of_mem (List.mem_filter.mpr ⟨member, decide_eq_true holds⟩)

end Split

/-! ## Two texts -/

/-- A tokenizer that accepts one text. -/
def onlyText (text : Text) (found : List Token)
    (fine : (∀ token ∈ found, token.start ≤ token.stop ∧ token.stop < text.length ∧
        text[token.start]?.all (fun c => !isSpace c) = true ∧
        (token.semicolon = true → token.stop = token.start ∧ text[token.start]? = some ';')) ∧
      found.Pairwise fun earlier later => earlier.stop < later.start) : Tokenizer where
  tokenize sql := if sql = text then some found else none
  within {sql tokens} accepted := by
    split at accepted
    · rename_i same
      obtain rfl := Option.some.inj accepted
      rw [same]
      exact fun token member => ⟨(fine.1 token member).1, (fine.1 token member).2.1⟩
    · cases accepted
  ordered {sql tokens} accepted := by
    split at accepted
    · obtain rfl := Option.some.inj accepted
      exact fine.2
    · cases accepted
  visible {sql tokens} accepted := by
    split at accepted
    · rename_i same
      obtain rfl := Option.some.inj accepted
      rw [same]
      intro token member c first
      have all := (fine.1 token member).2.2.1
      rw [Option.mem_def.mp first] at all
      simpa using all
    · cases accepted
  exact_semicolon {sql tokens} accepted := by
    split at accepted
    · rename_i same
      obtain rfl := Option.some.inj accepted
      rw [same]
      exact fun token member => (fine.1 token member).2.2.2
    · cases accepted

theorem accepts_onlyText {text : Text} {found : List Token} {fine} :
    (onlyText text found fine).tokenize text = some found := if_pos rfl

def twoSelects : Text := "SELECT 1; SELECT 22;".toList

def twoSelectsTokens : List Token :=
  [⟨false, 0, 5⟩, ⟨false, 7, 7⟩, ⟨true, 8, 8⟩, ⟨false, 10, 15⟩, ⟨false, 17, 18⟩, ⟨true, 19, 19⟩]

def twoSelectsTokenizer : Tokenizer := onlyText twoSelects twoSelectsTokens (by decide)

theorem twoSelects_batched : Batched twoSelectsTokenizer twoSelects twoSelectsTokens ∧
    statementsOf twoSelects twoSelectsTokens = ["SELECT 1".toList, " SELECT 22".toList] :=
  ⟨(batched_iff accepts_onlyText).mpr (by decide), by decide⟩

/-- A statement, and a comment behind its semicolon. -/
def commentBehind : Text := "SELECT 1; -- done".toList

def commentBehindTokens : List Token := [⟨false, 0, 5⟩, ⟨false, 7, 7⟩, ⟨true, 8, 8⟩]

def commentBehindTokenizer : Tokenizer := onlyText commentBehind commentBehindTokens (by decide)

/-- The comment is handed on as a second statement. -/
theorem comment_handed_on :
    statementsOf commentBehind commentBehindTokens = ["SELECT 1".toList] ∧
    HandledAs commentBehindTokenizer commentBehind ["SELECT 1".toList, " -- done".toList] ∧
    ¬Batched commentBehindTokenizer commentBehind commentBehindTokens := by
  have two : handed commentBehindTokenizer commentBehind =
      ["SELECT 1".toList, " -- done".toList] := by decide
  refine ⟨by decide, two ▸ handledAs_handed _ _, fun batched => ?_⟩
  have accepted : commentBehindTokenizer.tokenize commentBehind = some commentBehindTokens :=
    accepts_onlyText
  have on := (batched_iff_handedOn accepted).mp batched
  have one : statementsOf commentBehind commentBehindTokens = ["SELECT 1".toList] := by decide
  rw [two, one] at on
  obtain ⟨before, after, -, -, same⟩ := on
  cases List.tail_eq_of_cons_eq same

end PgMimic.Batches
