import PgMimic.Identifiers
import PgMimic.PreparedStatements
import PgMimic.Savepoints

/-!
# ROLLBACK TO, by its text

A ROLLBACK TO whose name `_IDENT` does not match is a ROLLBACK to the pattern tried after
it, and ends the transaction. The names it matches are told from the others here.
-/

namespace PgMimic.StatementText

open PgMimic.Copy (Text)
open PgMimic.Endpoint (TextTables)
open PgMimic.Patterns
open PgMimic.Protocols (Prepared Bound PortalEntry Stored Bare Row Columns transactionControl
  savepointStatement transactionStatement)

/-! ## Spellings -/

/-- `ROLLBACK [TRANSACTION | WORK] TO [SAVEPOINT] name [;]`. The white space behind the last
word may be left out in front of a quoted name. -/
inductive RollbackSpelling {t : TextTables} (id : Identifier t) (gap : Text) : Text → Prop where
  | intro {rollback scope words closing : Text} (rollback_ : Keyword "ROLLBACK" rollback)
      (scope_ : scope = [] ∨ Keyword "TRANSACTION" scope ∨ Keyword "WORK" scope)
      (words_ : Reads "TO" words ∨
        ∃ first second, Keyword "TO" first ∧ Reads "SAVEPOINT" second ∧ words = first ++ second)
      (blank : ∀ c ∈ gap, isSpace c = true) (apart : gap ≠ [] ∨ id.isQuoted = true)
      (closing_ : Closing closing) :
      RollbackSpelling id gap
        (rollback ++ (scope ++ (words ++ (gap ++ (id.spelling ++ closing)))))

section Reading

variable {t : TextTables} {rollback scope words gap closing rest : Text}

/-- What `TO [SAVEPOINT]` leads to. -/
def savepointName (t : TextTables) (text : Text) : Option Text :=
  (spaced "TO".toList text).bind fun rest =>
    [spaced "SAVEPOINT".toList rest, some rest].findSome? fun rest => rest.bind (lastIdent t)

theorem rollbackTo_eq (text : Text) : rollbackTo t text =
    (spaced "ROLLBACK".toList (text.dropWhile isSpace)).bind fun rest =>
      [spaced "TRANSACTION".toList rest, spaced "WORK".toList rest, some rest].findSome? fun rest =>
        rest.bind (savepointName t) := by
  rw [rollbackTo]
  simp only [Option.bind_assoc]
  rfl

/-- The word SAVEPOINT is tried before it is left out. -/
theorem savepointName_of_spaced {text : Text} (found : spaced "TO".toList text = some rest) :
    savepointName t text =
      ((spaced "SAVEPOINT".toList rest).bind (lastIdent t)).or (lastIdent t rest) := by
  rw [savepointName, found, Option.bind_some]
  exact findSome?_pair _ _ _

theorem savepointName_eq_none {letters : String} (k : Keyword letters scope)
    (shorter : ¬"TO".toList <+: letters.toList) (longer : ¬letters.toList <+: "TO".toList) :
    savepointName t (scope ++ rest) = none := by
  rw [savepointName, k.spaced_none shorter longer]
  rfl

/-- `ROLLBACK [TRANSACTION | WORK]`, in front of a `TO`. -/
theorem rollbackTo_scope {read : Text} (rollback_ : Keyword "ROLLBACK" rollback)
    (scope_ : scope = [] ∨ Keyword "TRANSACTION" scope ∨ Keyword "WORK" scope)
    (reads : Reads "TO" read) :
    rollbackTo t (rollback ++ (scope ++ (read ++ rest))) = savepointName t (read ++ rest) := by
  have start : Begun (read ++ rest) := begun_of_reads reads ⟨_, _, rfl, rfl⟩
  have begun : Begun (scope ++ (read ++ rest)) := by
    rcases scope_ with rfl | k | k
    · exact start
    · exact k.begun ⟨_, _, rfl, rfl⟩
    · exact k.begun ⟨_, _, rfl, rfl⟩
  have skipped : (rollback ++ (scope ++ (read ++ rest))).dropWhile isSpace =
      rollback ++ (scope ++ (read ++ rest)) :=
    Trim.dropWhile_solid (rollback_.begun ⟨_, _, rfl, rfl⟩)
  rw [rollbackTo_eq, skipped, rollback_.spaced begun, Option.bind_some]
  have other : ∀ letters : String, ¬letters.toList <+: "TO".toList →
      ¬"TO".toList <+: letters.toList → spaced letters.toList (read ++ rest) = none :=
    fun letters shorter longer => spaced_eq_none reads shorter longer
  rcases scope_ with rfl | k | k
  · rw [List.nil_append, other "TRANSACTION" (by decide) (by decide),
      other "WORK" (by decide) (by decide)]
    simp only [List.findSome?_cons, Option.bind_some, Option.bind_none, List.findSome?_nil]
    cases savepointName t (read ++ rest) <;> rfl
  · rw [k.spaced start]
    have unread : savepointName t (scope ++ (read ++ rest)) = none :=
      savepointName_eq_none k (by decide) (by decide)
    have work : spaced "WORK".toList (scope ++ (read ++ rest)) = none :=
      k.spaced_none (by decide) (by decide)
    rw [work]
    simp only [List.findSome?_cons, Option.bind_some, Option.bind_none, unread, List.findSome?_nil]
    cases savepointName t (read ++ rest) <;> rfl
  · have transaction : spaced "TRANSACTION".toList (scope ++ (read ++ rest)) = none :=
      k.spaced_none (by decide) (by decide)
    have unread : savepointName t (scope ++ (read ++ rest)) = none :=
      savepointName_eq_none k (by decide) (by decide)
    rw [k.spaced start, transaction]
    simp only [List.findSome?_cons, Option.bind_some, Option.bind_none, unread, List.findSome?_nil]
    cases savepointName t (read ++ rest) <;> rfl

/-- A word is found in front of a name where white space stands between them. -/
theorem spaced_gap {letters : String} {read : Text} (reads : Reads letters read)
    (blank : ∀ c ∈ gap, isSpace c = true) (begun : Begun rest) :
    spaced letters.toList (read ++ (gap ++ rest)) = if gap = [] then none else some rest := by
  by_cases none_ : gap = []
  · rw [if_pos none_, none_, List.nil_append, spaced_of_reads reads begun]
  · have keyword_ : Keyword letters (read ++ gap) := ⟨read, gap, reads, ⟨none_, blank⟩, rfl⟩
    rw [if_neg none_, ← List.append_assoc, keyword_.spaced begun]

/-- No letter of a word stands behind the last one: it is white space, or a quote. -/
theorem stops_behind (tables : WordTables t) (id : Identifier t)
    (blank : ∀ c ∈ gap, isSpace c = true) (apart : gap ≠ [] ∨ id.isQuoted = true) :
    ∀ a ∈ (gap ++ (id.spelling ++ closing)).head?, t.isWord a = false := by
  intro a member
  cases gap with
  | nil =>
    cases id with
    | unquoted name some_ letters => simp [Identifier.isQuoted] at apart
    | quoted name some_ =>
      obtain rfl := Option.some.inj member
      exact tables.ascii '"' (by decide)
  | cons b gap =>
    obtain rfl := Option.some.inj member
    exact tables.space b (blank b (by simp))

/-- Neither reading of the name comes to anything unless it is plain and stands apart. -/
theorem savepointName_iff (tables : WordTables t) (id : Identifier t)
    (words_ : Reads "TO" words ∨
      ∃ first second, Keyword "TO" first ∧ Reads "SAVEPOINT" second ∧ words = first ++ second)
    (blank : ∀ c ∈ gap, isSpace c = true) (apart : gap ≠ [] ∨ id.isQuoted = true)
    (closed : Closing closing) :
    (savepointName t (words ++ (gap ++ (id.spelling ++ closing)))).isSome = true ↔
      id.Plain ∧ gap ≠ [] := by
  obtain ⟨c, later, spelled, solid, other⟩ := id.begun tables
  have begun : Begun (id.spelling ++ closing) := by
    rw [spelled]
    exact begun_cons solid (later ++ closing)
  rcases words_ with reads | ⟨first, second, to_, reads, rfl⟩
  · have found := spaced_gap reads blank begun
    by_cases none_ : gap = []
    · rw [savepointName, found, if_pos none_]
      exact iff_of_false Bool.false_ne_true fun both => both.2 none_
    · rw [if_neg none_] at found
      rw [savepointName_of_spaced found, Option.isSome_or, Bool.or_eq_true,
        lastIdent_spelling tables id closed]
      constructor
      · rintro (found | plain)
        · refine ⟨?_, none_⟩
          by_contra unplain
          have unnamed : id.spelling.map foldCase ≠ "SAVEPOINT".toList :=
            fold_not_plain id unplain rfl
          rw [spaced_spelling tables id rfl (by decide) unnamed closed] at found
          cases found
        · exact ⟨plain, none_⟩
      · exact fun both => Or.inr both.1
  · have nonempty : second ≠ [] := by
      rintro rfl
      exact absurd reads (by simp [Reads])
    -- SAVEPOINT itself is no name, since more follows it
    have unnamed : lastIdent t (second ++ (gap ++ (id.spelling ++ closing))) = none := by
      have stops : ∀ a ∈ (gap ++ (id.spelling ++ closing)).head?, t.isWord a = false :=
        stops_behind tables id blank apart
      rw [spelled, List.cons_append] at stops ⊢
      exact lastIdent_word reads nonempty rfl blank solid other stops
    have begun' : Begun (second ++ (gap ++ (id.spelling ++ closing))) :=
      begun_of_reads reads ⟨_, _, rfl, rfl⟩
    rw [List.append_assoc, savepointName_of_spaced (to_.spaced begun'), unnamed, Option.or_none,
      spaced_gap reads blank begun]
    by_cases none_ : gap = []
    · rw [if_pos none_]
      exact iff_of_false Bool.false_ne_true fun both => both.2 none_
    · rw [if_neg none_, Option.bind_some, lastIdent_spelling tables id closed]
      exact ⟨fun plain => ⟨plain, none_⟩, And.left⟩

end Reading

/-! ## What the middleware does with it -/

/-- The transaction goes on: where it began, and each savepoint that is left, can still be
gone back to. -/
structure Continues {Value Stmt Port : Type} (w w' : World Value Stmt Port) : Prop where
  opened : w'.txStatus ≠ .I
  outermost : w'.state.scopes.head? = w.state.scopes.head?
  savepoints : w'.state.savepoints <+: w.state.savepoints

/-- The text is neither taken for the end of a transaction nor answered as one, and the
statement it is answered with leaves the transaction open. -/
structure StaysOpen {Value : Type} [DecidableEq Value] (cat : Catalogue Value) (Cell : Type)
    (t : TextTables) (sql : Text) : Prop where
  goesOn : isTransactionEnd t sql = false
  answered : (transactionControl t (Endpoint.strip sql) : Option (Prepared Value Cell)) ≠
    some (transactionStatement "ROLLBACK" .rollback)
  kept : ∀ (w : Stored Value Cell) (tag : Text) (columns : Columns) (s : Statement)
    (rows : Bare Value → List (Row Cell)) (answers : List Answer),
    transactionControl t (Endpoint.strip sql) = some (.static tag columns (.run s rows)) →
    w.txStatus ≠ .I → Continues w (World.execute cat w ⟨s, answers⟩).1

section Outcome

variable {Value Stmt Port : Type} [DecidableEq Value] {cat : Catalogue Value}

/-- Whether the savepoint is found or not. -/
theorem continues_rollbackTo {w : World Value Stmt Port} (opened : w.txStatus ≠ .I) (name : String)
    (answers : List Answer) :
    Continues w (World.execute cat w ⟨.savepoint .rollbackTo name, answers⟩).1 := by
  have allowed : ¬(w.txStatus = .E ∧
      (Statement.savepoint .rollbackTo name).allowedInFailedTransaction = false) :=
    fun both => nomatch both.2
  rw [World.execute, if_neg allowed]
  simp only [World.onExecute, World.savepointStatement, if_neg opened]
  cases innermost w.state.savepoints name with
  | none =>
    refine ⟨fun idle => opened ((World.txStatus_fail_eq_I w).mp idle), ?_, ?_⟩
    · rw [World.state_fail]
    · rw [World.state_fail]
  | some index =>
    refine ⟨by simp [World.txStatus_rollbackTo], ?_, ?_⟩
    · change (World.rollbackTo cat w index).state.scopes.head? = _
      rw [World.state_rollbackTo, SessionState.scopes_restoreScope, List.head?_take,
        if_neg (Nat.succ_ne_zero index)]
    · change (World.rollbackTo cat w index).state.savepoints <+: _
      rw [World.state_rollbackTo, SessionState.savepoints_restoreScope]
      exact List.take_prefix _ _

end Outcome

section Text

variable {t : TextTables} {id : Identifier t} {gap core before after : Text}

/-- Neither end of a spelling is white space. -/
theorem solid_spelling (tables : WordTables t) (spelled : RollbackSpelling id gap core) :
    Trim.Solid isSpace core := by
  cases spelled with
  | @intro rollback scope words closing rollback_ scope_ words_ blank apart closing_ =>
    refine ⟨rollback_.begun ⟨_, _, rfl, rfl⟩, ?_⟩
    obtain ⟨c, later, spelled, _, _⟩ := id.begun tables
    have nonempty : id.spelling ≠ [] := by
      rw [spelled]
      simp
    simp only [← List.append_assoc]
    cases closing_ with
    | nothing =>
      rw [List.append_nil, List.getLast?_append_of_ne_nil _ nonempty]
      exact id.solid_last tables
    | @semicolon run _ =>
      rw [← List.append_assoc, List.getLast?_concat]
      intro a member
      obtain rfl := Option.some.inj member
      rfl

theorem strip_spelling (tables : WordTables t) (spelled : RollbackSpelling id gap core)
    (blank : ∀ c ∈ before, isSpace c = true) (blank' : ∀ c ∈ after, isSpace c = true) :
    Endpoint.strip (before ++ (core ++ after)) = core :=
  Trim.trim_of_solid blank (solid_spelling tables spelled) blank'

theorem leads_rollback (tables : WordTables t) (spelled : RollbackSpelling id gap core) :
    leads t ["ROLLBACK".toList] core = true := by
  cases spelled with
  | @intro rollback scope words closing rollback_ scope_ words_ blank apart closing_ =>
    have begun : Begun (rollback ++ (scope ++ (words ++ (gap ++ (id.spelling ++ closing))))) :=
      rollback_.begun ⟨_, _, rfl, rfl⟩
    have skipped := Trim.dropWhile_solid begun
    obtain ⟨read, behind, reads, g, rfl⟩ := rollback_
    obtain ⟨c, run, rfl⟩ := List.exists_cons_of_ne_nil g.1
    rw [List.append_assoc, List.cons_append] at skipped ⊢
    rw [leads, List.any_cons, List.any_nil, Bool.or_false, skipped, keyword_append reads]
    simp [bounded, tables.space c (g.2 c (by simp))]

theorem rollbackTo_iff (tables : WordTables t) (spelled : RollbackSpelling id gap core) :
    (rollbackTo t core).isSome = true ↔ id.Plain ∧ gap ≠ [] := by
  cases spelled with
  | @intro rollback scope words closing rollback_ scope_ words_ blank apart closing_ =>
    rw [← savepointName_iff tables id words_ blank apart closing_]
    have reads : ∃ read rest, Reads "TO" read ∧ words = read ++ rest := by
      rcases words_ with reads | ⟨_, second, ⟨read, behind, reads, _, rfl⟩, _, rfl⟩
      · exact ⟨words, [], reads, (List.append_nil _).symm⟩
      · exact ⟨read, behind ++ second, reads, List.append_assoc ..⟩
    obtain ⟨read, rest, reads, rfl⟩ := reads
    rw [List.append_assoc read, rollbackTo_scope rollback_ scope_ reads]

/-- A ROLLBACK TO leaves the transaction open if and only if its name has no dollar sign
outside quotes and no doubled quote inside them, and white space stands in front of it. -/
theorem rollback_to_stays_open_iff {Value Cell : Type} [DecidableEq Value] (cat : Catalogue Value)
    (tables : WordTables t) (spelled : RollbackSpelling id gap core)
    (blank : ∀ c ∈ before, isSpace c = true) (blank' : ∀ c ∈ after, isSpace c = true) :
    StaysOpen cat Cell t (before ++ (core ++ after)) ↔ id.Plain ∧ gap ≠ [] := by
  have stripped := strip_spelling tables spelled blank blank'
  rw [← rollbackTo_iff tables spelled]
  constructor
  · intro stays
    by_contra unread
    have ended := stays.goesOn
    rw [isTransactionEnd, stripped, if_neg unread, leads_rollback tables spelled] at ended
    simp at ended
  · intro read
    obtain ⟨name, found⟩ := Option.isSome_iff_exists.mp read
    have answer : transactionControl t core =
        some (savepointStatement t core .rollbackTo name : Prepared Value Cell) := by
      rw [transactionControl, found]
    refine ⟨?_, ?_, ?_⟩
    · rw [isTransactionEnd, stripped, if_pos read]
    · rw [stripped, answer]
      intro same
      cases same
    · intro w tag columns s rows answers resolved opened
      rw [stripped, answer] at resolved
      cases resolved
      exact continues_rollbackTo opened _ answers

end Text

def dollarName : Identifier Endpoint.asciiTables :=
  .unquoted "a$b".toList (by decide) (by simp [Endpoint.asciiTables])

def quotedName (name : Text) (some_ : name ≠ []) : Identifier Endpoint.asciiTables :=
  .quoted name some_

theorem rollbackSpelling {t : TextTables} (id : Identifier t) :
    RollbackSpelling id [' '] ("ROLLBACK TO ".toList ++ id.spelling) := by
  have rollback : Keyword "ROLLBACK" "ROLLBACK ".toList :=
    ⟨"ROLLBACK".toList, [' '], rfl, ⟨by simp, by simp [isSpace]⟩, rfl⟩
  have words : Reads "TO" "TO".toList := rfl
  have spelled : RollbackSpelling id [' ']
      ("ROLLBACK ".toList ++ ([] ++ ("TO".toList ++ ([' '] ++ (id.spelling ++ []))))) :=
    .intro rollback (Or.inl rfl) (Or.inl words) (by simp [isSpace]) (Or.inl (by simp)) .nothing
  rw [List.append_nil] at spelled
  exact spelled

/-- `ROLLBACK TO a$b` and `ROLLBACK TO "a""b"` are taken for a ROLLBACK. -/
theorem rollback_to_dollar_ends :
    ∃ (u : System String (Prepared String Unit) (PortalEntry (Bound String Unit)))
      (c : Client String (Prepared String Unit) (PortalEntry (Bound String Unit))),
      Trace.run (System.step plainCatalogue) (System.start ∅ 5432)
        [.connect 1 "app" ∅, .request 1 ⟨.transaction .begin, []⟩] = some u ∧
      u.clients 1 = some c ∧ c.connection.txStatus = .T ∧
      RollbackSpelling dollarName [' '] "ROLLBACK TO a$b".toList ∧
      isTransactionEnd Endpoint.asciiTables "ROLLBACK TO a$b".toList = true ∧
      transactionControl Endpoint.asciiTables "ROLLBACK TO a$b".toList =
        some (transactionStatement "ROLLBACK" .rollback : Prepared String Unit) ∧
      (World.execute plainCatalogue (c.world u.server) ⟨.transaction .rollback, []⟩).1.txStatus =
        .I ∧
      RollbackSpelling (quotedName "a\"b".toList (by decide)) [' ']
        "ROLLBACK TO \"a\"\"b\"".toList ∧
      isTransactionEnd Endpoint.asciiTables "ROLLBACK TO \"a\"\"b\"".toList = true := by
  refine ⟨_, _, rfl, rfl, rfl, rollbackSpelling dollarName, by decide, rfl, rfl,
    rollbackSpelling (quotedName "a\"b".toList (by decide)), by decide⟩

theorem rollback_to_quoted_stays_open :
    StaysOpen plainCatalogue Unit Endpoint.asciiTables "ROLLBACK TO \"a b\"\n".toList := by
  have nothing : ∀ c ∈ ([] : Text), isSpace c = true := by simp
  have newline : ∀ c ∈ ['\n'], isSpace c = true := by simp [isSpace]
  have bare : '"' ∉ "a b".toList := by decide
  exact (rollback_to_stays_open_iff plainCatalogue wordTables_ascii
    (rollbackSpelling (quotedName "a b".toList (by decide))) nothing newline).mpr
      ⟨bare, by simp⟩

end PgMimic.StatementText
