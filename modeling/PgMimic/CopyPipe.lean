import PgMimic.CopyCsv
import PgMimic.CopyText
import PgMimic.Rounds

/-!
# A table copied from one connection to another

A client reads a COPY to STDOUT on one connection and sends what it reads on another as a COPY
from STDIN, cut as it likes. The session it reads from may push notices, be cancelled and fail
wherever it is called. What the other session is handed are the rows, all of them and then the
end, or the first few of them and then the failure.
-/

namespace PgMimic.CopyPipe

open PgMimic.Copy (Text Row CopyOptions CopyInDecoder TextOptions CsvOptions EndsData encodeRow
  Readable returned shown lines)
open PgMimic.CopyIn (CopyInReader readBatch copyFailed iterate offer)
open PgMimic.Dispatch
open PgMimic.Messages (Backend Bytes)
open PgMimic.Stream (Tag Message)

/-! ## The client between the two -/

/-- The CopyData it has been sent, and whether a CopyDone was behind it. -/
structure Kept where
  pieces : List Bytes
  done : Bool

def Kept.take (k : Kept) (w : Written) : Kept :=
  match w.1 with
  | .copyData data => { k with pieces := k.pieces ++ [data] }
  | .copyDone => { k with done := true }
  | _ => k

def kept (log : List Written) : Kept := log.foldl Kept.take ⟨[], false⟩

def payloads (data : List Message) : Bytes :=
  (data.filter fun m => m.tag = Tag.COPY_DATA).flatMap Message.payload

/-- It sends the bytes on in other pieces, with a Flush or a Sync here and there, and fails the
copy where it has not been told of the end. -/
structure Relayed (k : Kept) (data : List Message) (last : Message) : Prop where
  tags : ∀ m ∈ data, m.tag = Tag.COPY_DATA ∨ m.tag = Tag.FLUSH ∨ m.tag = Tag.SYNC
  bytes : payloads data = k.pieces.flatten
  last : last.tag = if k.done then Tag.COPY_DONE else Tag.COPY_FAIL

/-! ## What is copied -/

section Served

variable {σ Value Stmt Portal Cell Param : Type} (ty : Types Cell Param)

/-- If it hands over a row, and the row can be shown, these are its fields. -/
def Hands (pull : Hook σ Value Stmt Portal (List (Option Cell))) (fields : Row) : Prop :=
  ∀ reached row, (pull reached).2.2 = .ok row →
    ∀ texts, (row.mapM fun cell => cell.mapM ty.copyText) = .ok texts → texts = fields

/-- What the session copies out, whenever it does. -/
structure Serves (s : Session σ Value Stmt Portal Cell Param) (statement : Stmt)
    (names : List Text) (rows : List Row) : Prop where
  names : ∀ reached found, (s.headerNames statement reached).2.2 = .ok found → found = names
  rows : ∀ reached source, (s.copyOut statement reached).2.2 = .ok source →
    List.Forall₂ (Hands ty) source.rows rows

end Served

/-- The header counts as a row, where there is one. -/
def withHeader (o : CopyOptions) (names : List Text) (rows : List Row) : List Row :=
  if o.header then names.map some :: rows else rows

/-- What either format can carry. -/
inductive Carries (o : CopyOptions) (rows : List Row) : Prop where
  | text (options : TextOptions o) (fields : ∀ row ∈ rows, row ≠ [])
  | csv (options : CsvOptions { o with header := false }) (fields : ∀ row ∈ rows, row ≠ [])
      (goesOn : ∀ row ∈ rows, ¬EndsData { o with header := false } row)

theorem Carries.of_prefix {o : CopyOptions} {some_ rows : List Row} (h : Carries o rows)
    (part : some_ <+: rows) : Carries o some_ := by
  cases h with
  | text options fields => exact .text options fun row member => fields row (part.subset member)
  | csv options fields goesOn =>
    exact .csv options (fun row member => fields row (part.subset member))
      fun row member => goesOn row (part.subset member)

/-! The header is nothing to how a row is read. -/

theorem splitCsvRecord_headless (o : CopyOptions) (q : Copy.Quoting) (text : Text) :
    Copy.splitCsvRecord { o with header := false } q text = Copy.splitCsvRecord o q text := by
  induction text generalizing q with
  | nil => cases q <;> rfl
  | cons c text ih => cases q <;> simp only [Copy.splitCsvRecord, ih]

theorem csvFieldsFrom_headless (o : CopyOptions) (current : Text) (quoted : Bool)
    (q : Copy.Quoting) (text : Text) :
    Copy.csvFieldsFrom { o with header := false } current quoted q text =
      Copy.csvFieldsFrom o current quoted q text := by
  induction text generalizing current quoted q with
  | nil => cases q <;> simp only [Copy.csvFieldsFrom, Copy.csvValue]
  | cons c text ih => cases q <;> simp only [Copy.csvFieldsFrom, Copy.csvValue, ih]

theorem readable_headless {o : CopyOptions} {row : Row}
    (h : Readable { o with header := false } row) : Readable o row := by
  obtain ⟨splits, ends, fields⟩ := h
  refine ⟨fun rest => ?_, ends, ?_⟩
  · have split := splits rest
    simp only [Copy.splitRecord, splitCsvRecord_headless] at split ⊢
    exact split
  · simp only [Copy.fieldsOf, Copy.csvFields, csvFieldsFrom_headless] at fields ⊢
    exact fields

theorem Carries.readable {o : CopyOptions} {rows : List Row} (h : Carries o rows) :
    ∀ row ∈ rows, Readable o row := by
  intro row member
  cases h with
  | text options fields => exact Copy.readable_text options (fields row member)
  | csv options fields goesOn =>
    exact readable_headless (Copy.readable_csv options (fields row member))

theorem Carries.shown {o : CopyOptions} {rows : List Row} (h : Carries o rows) :
    ∀ row ∈ rows, Copy.line o row ≠ Copy.endOfData := by
  intro row member
  cases h with
  | text options fields => exact Copy.line_ne_endOfData options (fields row member)
  | csv options fields goesOn =>
    intro marker
    exact goesOn row member ((Copy.line_eq_endOfData_iff options (fields row member)).mp marker)

/-- What is read back of them is what stands behind the header. -/
theorem Carries.returned_eq {o : CopyOptions} {rows : List Row} (h : Carries o rows) :
    returned o o.header rows = rows.drop (if o.header then 1 else 0) := by
  have all : rows.takeWhile (Copy.shown o) = rows :=
    List.takeWhile_eq_self_iff.mpr fun row member => decide_eq_true (h.shown row member)
  rw [returned, all]

/-! ## The connection that copies out -/

section Sending

variable {σ Value Stmt Portal Cell Param α β : Type} {rt : Runtime} {ty : Types Cell Param}
  {s : Session σ Value Stmt Portal Cell Param} {o : CopyOptions}
  {before rows whole : List Row} {fields : Row} {names : List Text}

/-- The client has got so many rows. -/
def Got (o : CopyOptions) (rows : List Row) (_ : Conn σ Value Stmt Portal) (k : Kept) : Prop :=
  k = ⟨rows.map (encodeRow o), false⟩

/-- No row has been cut off, and the client has not been told that these were all. -/
def Stopped (o : CopyOptions) (whole : List Row) (_ : Thrown) (_ : Conn σ Value Stmt Portal)
    (k : Kept) : Prop :=
  ∃ rows, rows <+: whole ∧ k = ⟨rows.map (encodeRow o), false⟩

abbrev Sends (o : CopyOptions) (whole : List Row) (P : Conn σ Value Stmt Portal → Kept → Prop)
    (m : Cmd σ Value Stmt Portal α) (R : α → Conn σ Value Stmt Portal → Kept → Prop) : Prop :=
  Command.Triple (fun k w => some (Kept.take k w)) P m R (Stopped o whole)

theorem run_take (k : Kept) (log : List Written) :
    Trace.run (fun k w => some (Kept.take k w)) k log = some (log.foldl Kept.take k) := by
  induction log generalizing k with
  | nil => rfl
  | cons w log ih => exact ih (k.take w)

theorem take_pushed {w : Written} (pushed : w.1.isAsync = true) (k : Kept) : k.take w = k := by
  obtain ⟨b, made⟩ := w
  cases b with
  | copyData data => cases pushed
  | copyDone => cases pushed
  | _ => rfl

theorem foldl_pushed (pushed : List Pushed) (k : Kept) :
    (pushed.map Subtype.val).foldl Kept.take k = k := by
  induction pushed generalizing k with
  | nil => rfl
  | cons w pushed ih =>
    rw [List.map_cons, List.foldl_cons, take_pushed w.2]
    exact ih k

/-- Whatever the session is called for, the client gets no data from it. -/
theorem sends_call (part : rows <+: whole) (hook : Hook σ Value Stmt Portal α) {Q : α → Prop}
    (gives : ∀ reached x, (hook reached).2.2 = .ok x → Q x) :
    Sends o whole (Got o rows) (call hook) fun x c k => Q x ∧ Got o rows c k := by
  intro c k start
  refine ⟨k, ?_, ?_⟩
  · rw [call, run_take, foldl_pushed]
  · rw [call]
    cases ended : (hook (c.own, c.world)).2.2 with
    | ok x => exact ⟨gives _ x ended, start⟩
    | error e => exact ⟨rows, part, start⟩

theorem sends_settle (part : rows <+: whole) (r : Except Thrown α) {Q : α → Prop}
    (gives : ∀ x, r = .ok x → Q x) :
    Sends o whole (Got o rows) (Command.settle r : Cmd σ Value Stmt Portal α)
      fun x c k => Q x ∧ Got o rows c k := by
  apply Command.Triple.settle
  intro c k start
  cases r with
  | ok x => exact ⟨gives x rfl, start⟩
  | error e => exact ⟨rows, part, start⟩

/-- A message is built and written, or it is not and that is all. -/
theorem sends_send (part : rows <+: whole) (b : Backend)
    {R : Conn σ Value Stmt Portal → Kept → Prop}
    (after : ∀ c made, R c (Kept.take ⟨rows.map (encodeRow o), false⟩ ⟨b, made⟩)) :
    Sends o whole (Got o rows) (send rt b : Cmd σ Value Stmt Portal Unit) fun _ => R := by
  rw [send]
  split
  case isTrue made =>
    apply Command.Triple.write
    rintro c k rfl
    exact ⟨_, rfl, after c made⟩
  case isFalse =>
    apply Command.Triple.raise
    intro c k start
    exact ⟨rows, part, start⟩

theorem sends_row (part : rows ++ [fields] <+: whole) :
    Sends o whole (Got o rows)
      (send rt (.copyData (encodeRow o fields)) : Cmd σ Value Stmt Portal Unit)
      fun _ => Got o (rows ++ [fields]) := by
  refine sends_send ((List.prefix_append ..).trans part) _ fun c made => ?_
  rw [Got, List.map_append]
  rfl

/-- What the rows show is what is encoded. -/
theorem copyRow_eq {row : List (Option Cell)} {data : Bytes}
    (shows : ∀ texts, (row.mapM fun cell => cell.mapM ty.copyText) = .ok texts → texts = fields)
    (encoded : copyRow ty o row = .ok data) : data = encodeRow o fields := by
  rw [copyRow] at encoded
  cases texts : (row.mapM fun cell => cell.mapM ty.copyText) with
  | error failure =>
    rw [texts] at encoded
    cases encoded
  | ok shown =>
    rw [texts] at encoded
    rw [← Except.ok.inj encoded, shows shown texts]

/-- A row that has been pulled is encoded and sent. -/
theorem sends_encoded {row : List (Option Cell)} (part : rows ++ [fields] <+: whole)
    (shows : ∀ texts, (row.mapM fun cell => cell.mapM ty.copyText) = .ok texts → texts = fields)
    {f : Cmd σ Value Stmt Portal α} {R : α → Conn σ Value Stmt Portal → Kept → Prop}
    (rest : Sends o whole (Got o (rows ++ [fields])) f R) :
    Sends o whole (Got o rows) (do
      let data ← Command.settle (copyRow ty o row)
      send rt (.copyData data)
      f) R := by
  have shorter : rows <+: whole := (List.prefix_append ..).trans part
  refine Command.Triple.bind (sends_settle shorter _ fun data => copyRow_eq shows) fun data => ?_
  refine Command.Triple.given fun same => ?_
  rw [same]
  exact Command.Triple.bind (sends_row part) fun _ => rest

theorem sends_drainAt (part : rows <+: whole) (rowCount : Nat) :
    Sends o whole (Got o rows) (drainAt s rowCount) fun _ => Got o rows := by
  rw [drainAt]
  split
  · exact (sends_call part _ fun _ _ _ => trivial).imp (fun _ _ _ after => after.2) fun _ _ _ h => h
  · exact Command.Triple.pure fun _ _ start => start

theorem sends_copyRows {atEnd : Hook σ Value Stmt Portal Unit}
    {source : List (Hook σ Value Stmt Portal (List (Option Cell)))}
    (hands : List.Forall₂ (Hands ty) source rows) (rowCount : Nat)
    (all : before ++ rows = whole) :
    Sends o whole (Got o before) (copyRows rt ty s o atEnd rowCount source)
      fun n c k => n = rowCount + rows.length ∧ Got o whole c k := by
  induction hands generalizing before rowCount with
  | nil =>
    rw [List.append_nil] at all
    subst all
    refine Command.Triple.bind (sends_call List.prefix_rfl atEnd fun _ _ _ => trivial) fun _ => ?_
    exact Command.Triple.pure fun _ _ start => ⟨rfl, start.2⟩
  | @cons pull fields source rows hand _ ih =>
    have moved : before ++ [fields] ++ rows = whole := (List.append_assoc ..).trans all
    have part : before ++ [fields] <+: whole := ⟨rows, moved⟩
    refine Command.Triple.bind (sends_call ((List.prefix_append ..).trans part) pull hand)
      fun row => ?_
    refine Command.Triple.given fun shows => sends_encoded part shows ?_
    refine Command.Triple.bind (sends_drainAt part _) fun _ => ?_
    refine (ih (rowCount + 1) moved).imp ?_ fun _ _ _ h => h
    rintro n c k ⟨count, after⟩
    rw [List.length_cons]
    exact ⟨by omega, after⟩

theorem sends_headerOf {statement : Stmt} (served : Serves ty s statement names rows) :
    Sends o whole (Got o []) (headerOf s statement o) fun header c k =>
      header = (if o.header then some names else none) ∧ Got o [] c k := by
  rw [headerOf]
  split
  · refine Command.Triple.bind (sends_call List.nil_prefix _ served.names) fun found => ?_
    refine Command.Triple.given fun same => ?_
    exact Command.Triple.pure fun _ _ start => ⟨congrArg some same, start⟩
  · exact Command.Triple.pure fun _ _ start => ⟨rfl, start⟩

theorem sends_header (part : withHeader o names [] <+: whole) :
    Sends o whole (Got o [])
      (sendHeader rt o (if o.header then some names else none) : Cmd σ Value Stmt Portal Unit)
      fun _ => Got o (withHeader o names []) := by
  rw [withHeader] at part ⊢
  cases shown : o.header with
  | true =>
    rw [shown, if_pos rfl] at part
    have row : Sends o whole (Got o []) (send rt (.copyData (encodeRow o (names.map some))) :
        Cmd σ Value Stmt Portal Unit) fun _ => Got o ([] ++ [names.map some]) := sends_row part
    exact row
  | false => exact Command.Triple.pure fun _ _ start => start

theorem withHeader_eq (o : CopyOptions) (names : List Text) (rows : List Row) :
    withHeader o names rows = withHeader o names [] ++ rows := by
  rw [withHeader, withHeader]
  split
  · rfl
  · rfl

/-- From the second row on. -/
theorem sends_rest {source : RowSource σ Value Stmt Portal Cell}
    {pulls : List (Hook σ Value Stmt Portal (List (Option Cell)))}
    (hands : List.Forall₂ (Hands ty) pulls rows) (all : before ++ rows = whole) (sent total : Nat)
    (count : sent + rows.length = total) :
    Sends o whole (fun c k => Got o before c k) (do
      let rowCount ← copyRows rt ty s o source.atEnd sent pulls
      send rt .copyDone
      pure rowCount) fun n _ k => n = total ∧ k = ⟨whole.map (encodeRow o), true⟩ := by
  have ended : Sends o whole (Got o whole) (send rt .copyDone : Cmd σ Value Stmt Portal Unit)
      fun _ _ k => k = ⟨whole.map (encodeRow o), true⟩ :=
    sends_send List.prefix_rfl _ fun _ _ => rfl
  refine Command.Triple.bind (sends_copyRows hands sent all) fun n => ?_
  refine Command.Triple.given fun counted => ?_
  refine Command.Triple.bind ended fun _ => ?_
  exact Command.Triple.pure fun _ _ after => ⟨counted.trans count, after⟩

/-- From the header on, the first row being there. -/
theorem sends_body {copy : Dispatch.CopyStatement} {source : RowSource σ Value Stmt Portal Cell}
    (hands : List.Forall₂ (Hands ty) source.rows rows)
    (all : withHeader copy.options names rows = whole) :
    Sends copy.options whole (Got copy.options []) (do
      let first ← firstRow source
      send rt (.copyOutResponse (columnCountOf first
        (if copy.options.header then some names else none) copy.columnCount))
      sendHeader rt copy.options (if copy.options.header then some names else none)
      let sent ← sendFirst rt ty copy.options first
      let rowCount ← copyRows rt ty s copy.options source.atEnd sent source.rows.tail
      send rt .copyDone
      pure rowCount)
      fun n _ k => n = rows.length ∧ k = ⟨whole.map (encodeRow copy.options), true⟩ := by
  rw [withHeader_eq] at all
  have part : withHeader copy.options names [] <+: whole := ⟨rows, all⟩
  have response (k : Nat) : Sends copy.options whole (Got copy.options [])
      (send rt (.copyOutResponse k) : Cmd σ Value Stmt Portal Unit)
      fun _ => Got copy.options [] := sends_send List.nil_prefix _ fun _ _ => rfl
  obtain ⟨pulls, atEnd⟩ := source
  cases hands with
  | nil =>
    have first : Sends copy.options whole (Got copy.options [])
        (firstRow ⟨[], atEnd⟩ : Cmd σ Value Stmt Portal (Option (List (Option Cell))))
        fun first c k => first = none ∧ Got copy.options [] c k := by
      refine Command.Triple.bind (sends_call List.nil_prefix atEnd fun _ _ _ => trivial) fun _ => ?_
      exact Command.Triple.pure fun _ _ start => ⟨rfl, start.2⟩
    refine Command.Triple.bind first fun first => ?_
    refine Command.Triple.given fun none_ => ?_
    rw [none_]
    refine Command.Triple.bind (response _) fun _ => ?_
    refine Command.Triple.bind (sends_header part) fun _ => ?_
    exact sends_rest .nil all 0 0 rfl
  | @cons pull fields pulls rows hand later =>
    have first : Sends copy.options whole (Got copy.options [])
        (firstRow ⟨pull :: pulls, atEnd⟩ : Cmd σ Value Stmt Portal (Option (List (Option Cell))))
        fun first c k => (∃ row, first = some row ∧ ∀ texts,
          (row.mapM fun cell => cell.mapM ty.copyText) = .ok texts → texts = fields) ∧
          Got copy.options [] c k := by
      refine Command.Triple.bind (sends_call List.nil_prefix pull hand) fun row => ?_
      exact Command.Triple.pure fun _ _ start => ⟨⟨row, rfl, start.1⟩, start.2⟩
    refine Command.Triple.bind first fun first => ?_
    refine Command.Triple.given fun ⟨row, some_, shows⟩ => ?_
    have moved : withHeader copy.options names [] ++ [fields] ++ rows = whole :=
      (List.append_assoc ..).trans all
    have encoded : Sends copy.options whole (Got copy.options (withHeader copy.options names []))
        (sendFirst rt ty copy.options (some row) : Cmd σ Value Stmt Portal Nat) fun sent c k =>
          sent = 1 ∧ Got copy.options (withHeader copy.options names [] ++ [fields]) c k :=
      sends_encoded ⟨rows, moved⟩ shows (Command.Triple.pure fun _ _ start => ⟨rfl, start⟩)
    rw [some_]
    refine Command.Triple.bind (response _) fun _ => ?_
    refine Command.Triple.bind (sends_header part) fun _ => ?_
    refine Command.Triple.bind encoded fun sent => ?_
    refine Command.Triple.given fun one => ?_
    rw [one]
    exact sends_rest later moved 1 _ (Nat.add_comm ..)

/-- A copy that returns has sent every row, and the end; one that raises has sent the first few
of them whole. -/
theorem sends_copyOut {statement : Stmt} {copy : Dispatch.CopyStatement}
    (served : Serves ty s statement names rows) :
    Sends copy.options (withHeader copy.options names rows) (Got copy.options [])
      (copyOut rt ty s statement copy) fun n _ k => n = rows.length ∧
        k = ⟨(withHeader copy.options names rows).map (encodeRow copy.options), true⟩ := by
  rw [copyOut]
  refine Command.Triple.bind (sends_headerOf served) fun header => ?_
  refine Command.Triple.given fun same => ?_
  rw [same]
  refine Command.Triple.bind (sends_call List.nil_prefix _ served.rows) fun source => ?_
  exact Command.Triple.given fun hands => sends_body hands rfl

variable (rt) in
/-- What the client has kept in the end. -/
theorem kept_copyOut {statement : Stmt} (copy : Dispatch.CopyStatement)
    (served : Serves ty s statement names rows) (c : Conn σ Value Stmt Portal) :
    match (copyOut rt ty s statement copy c).2.2 with
    | .ok n => n = rows.length ∧ kept (copyOut rt ty s statement copy c).2.1 =
        ⟨(withHeader copy.options names rows).map (encodeRow copy.options), true⟩
    | .error _ => ∃ some_, some_ <+: withHeader copy.options names rows ∧
        kept (copyOut rt ty s statement copy c).2.1 =
          ⟨some_.map (encodeRow copy.options), false⟩ := by
  have sends : Sends copy.options (withHeader copy.options names rows) (Got copy.options [])
      (copyOut rt ty s statement copy) _ := sends_copyOut served
  obtain ⟨k, ran, ends⟩ := sends c ⟨[], false⟩ rfl
  rw [run_take] at ran
  have k_eq : kept (copyOut rt ty s statement copy c).2.1 = k := Option.some.inj ran
  rw [k_eq]
  cases result : (copyOut rt ty s statement copy c).2.2 with
  | ok n =>
    rw [result] at ends
    exact ends
  | error e =>
    rw [result] at ends
    exact ends

end Sending

/-! ## The connection that copies in -/

section Receiving

variable {τ : Type} {o : CopyOptions} {hook : CopyIn.Hook τ} {before : Bytes} {text : Text}
  {read batch rows : List Row} {d : CopyInDecoder} {data : List Message} {last : Message}

/-- A hook that asks for every row. -/
theorem offer_all (all : ∀ read, hook.act read = none) (read batch : List Row) :
    offer hook read batch = (read ++ batch, none) := by
  induction batch generalizing read with
  | nil => rw [offer, all, List.append_nil]
  | cons row batch ih => rw [offer, all, ih, List.append_assoc, List.singleton_append]

theorem payloads_cons (m : Message) (data : List Message) : payloads (m :: data) =
    (if m.tag = Tag.COPY_DATA then m.payload else []) ++ payloads data := by
  rw [payloads, List.filter_cons]
  by_cases copy : m.tag = Tag.COPY_DATA
  · rw [if_pos (decide_eq_true copy), if_pos copy]
    rfl
  · rw [if_neg (by simpa using copy), if_neg copy]
    rfl

/-- The messages up to the last come to the bytes in them, whatever the pieces. -/
theorem iterate_data (all : ∀ read, hook.act read = none)
    (tags : ∀ m ∈ data, m.tag = Tag.COPY_DATA ∨ m.tag = Tag.FLUSH ∨ m.tag = Tag.SYNC)
    (fed : CopyInDecoder.Fed o before (read ++ batch) d)
    (valid : before ++ payloads data <+: Utf8.encode text) (later : List Message) :
    ∃ read' batch' d', CopyInDecoder.Fed o (before ++ payloads data) (read' ++ batch') d' ∧
      iterate o hook (data ++ later) ⟨d, false⟩ batch read =
        iterate o hook later ⟨d', false⟩ batch' read' := by
  induction data generalizing before read batch d with
  | nil =>
    rw [show payloads [] = [] from rfl, List.append_nil]
    exact ⟨read, batch, d, fed, rfl⟩
  | cons m data ih =>
    obtain ⟨first, others⟩ := List.forall_mem_cons.mp tags
    rw [payloads_cons, ← List.append_assoc] at valid ⊢
    rw [List.cons_append, iterate, offer_all all]
    by_cases copy : m.tag = Tag.COPY_DATA
    · rw [if_pos copy] at valid ⊢
      obtain ⟨now, d', feeds, fed'⟩ := fed.feed ((List.prefix_append ..).trans valid)
      have stepped : readBatch o ⟨d, false⟩ m = (⟨d', false⟩, .ok now) := by
        simp only [readBatch, if_pos copy, feeds]
      simp only [Bool.false_eq_true, if_false, stepped]
      exact ih others fed' valid
    · rw [if_neg copy, List.append_nil] at valid ⊢
      have stepped : readBatch o ⟨d, false⟩ m = (⟨d, false⟩, .ok []) := by
        rcases first with tag | tag | tag
        · exact absurd tag copy
        · simp [readBatch, tag, Tag.COPY_DATA, Tag.COPY_DONE, Tag.COPY_FAIL, Tag.FLUSH, Tag.SYNC]
        · simp [readBatch, tag, Tag.COPY_DATA, Tag.COPY_DONE, Tag.COPY_FAIL, Tag.FLUSH, Tag.SYNC]
      simp only [Bool.false_eq_true, if_false, stepped]
      refine ih others ?_ valid
      rw [List.append_nil]
      exact fed

theorem iterate_done (all : ∀ read, hook.act read = none) (done : last.tag = Tag.COPY_DONE)
    (fed : CopyInDecoder.Fed o (Utf8.encode text) (read ++ batch) d) :
    iterate o hook [last] ⟨d, false⟩ batch read =
      ⟨[], ⟨d, true⟩, Copy.textRows o text, hook.after (Copy.textRows o text) .exhausted⟩ := by
  obtain ⟨later, finished, rows⟩ := fed.finish
  have stepped : readBatch o ⟨d, false⟩ last = (⟨d, true⟩, .ok later) := by
    have copy : last.tag ≠ Tag.COPY_DATA := by
      rw [done]
      decide
    simp only [readBatch, if_neg copy, if_pos done, finished]
  rw [iterate, offer_all all]
  simp only [Bool.false_eq_true, if_false, stepped]
  rw [iterate, offer_all all, rows]
  rfl

theorem iterate_fail (all : ∀ read, hook.act read = none) (failed : last.tag = Tag.COPY_FAIL) :
    iterate o hook [last] ⟨d, false⟩ batch read = ⟨[], ⟨d, true⟩, read ++ batch,
      hook.after (read ++ batch) (.raised (copyFailed last.payload))⟩ := by
  have stepped : readBatch o ⟨d, false⟩ last =
      (⟨d, true⟩, .error (copyFailed last.payload)) := by
    have copy : last.tag ≠ Tag.COPY_DATA ∧ last.tag ≠ Tag.COPY_DONE := by
      rw [failed]
      decide
    simp only [readBatch, if_neg copy.1, if_neg copy.2, if_pos failed]
  rw [iterate, offer_all all]
  simp only [Bool.false_eq_true, if_false, stepped]

/-- The decoder has returned the rows of the lines it has been fed. -/
theorem fed_lines (carried : Carries o rows)
    (fed : CopyInDecoder.Fed o (Utf8.encode (lines o rows)) read d) :
    read = rows.drop (if o.header then 1 else 0) := by
  obtain ⟨_, consumed⟩ := fed
  obtain ⟨rest, _⟩ := Copy.consume_lines carried.readable ⟨false, o.header⟩ rfl
  rw [Utf8.completed_encode] at consumed
  rw [consumed] at rest
  exact rest.trans carried.returned_eq

theorem textRows_lines (carried : Carries o rows) :
    Copy.textRows o (lines o rows) = rows.drop (if o.header then 1 else 0) := by
  obtain ⟨rest, left⟩ := Copy.consume_lines carried.readable ⟨false, o.header⟩ rfl
  rw [← carried.returned_eq]
  simp only [Copy.textRows, rest, left]
  simp [CopyInDecoder.leftover]

end Receiving

/-! ## From one to the other -/

section Results

variable {σ τ Value Stmt Portal Cell Param : Type}

/-- A client pipes a COPY to STDOUT into a COPY from STDIN with the same options. If the one
returns, the other hands its session every row, and then the end; if the one raises, wherever
that is, the other hands its session the first few rows, and then the failure. -/
theorem copied_across (rt : Runtime) {ty : Types Cell Param}
    {s : Session σ Value Stmt Portal Cell Param} {statement : Stmt} {copy : Dispatch.CopyStatement}
    {names : List Text} {rows : List Row} (served : Serves ty s statement names rows)
    (carried : Carries copy.options (withHeader copy.options names rows))
    (c : Conn σ Value Stmt Portal) {data : List Message} {last : Message}
    (relayed : Relayed (kept (copyOut rt ty s statement copy c).2.1) data last)
    {hook : CopyIn.Hook τ} (all : ∀ read, hook.act read = none) :
    match (copyOut rt ty s statement copy c).2.2 with
    | .ok n => n = rows.length ∧ ∃ d,
      iterate copy.options hook (data ++ [last]) (.start copy.options) [] [] =
        ⟨[], ⟨d, true⟩, rows, hook.after rows .exhausted⟩
    | .error _ => ∃ some_ d, some_ <+: rows ∧
      iterate copy.options hook (data ++ [last]) (.start copy.options) [] [] =
        ⟨[], ⟨d, true⟩, some_, hook.after some_ (.raised (copyFailed last.payload))⟩ := by
  have behind : (withHeader copy.options names rows).drop (if copy.options.header then 1 else 0) =
      rows := by
    rw [withHeader]
    split
    · rfl
    · rfl
  have kept_ := kept_copyOut rt copy served c
  obtain ⟨tags, bytes, ends⟩ := relayed
  -- what arrives is the text of the rows that were sent
  have arrives {some_ : List Row} {done : Bool}
      (sent : kept (copyOut rt ty s statement copy c).2.1 =
        ⟨some_.map (encodeRow copy.options), done⟩) :
      ∃ read batch d,
        CopyInDecoder.Fed copy.options (Utf8.encode (lines copy.options some_)) (read ++ batch) d ∧
        iterate copy.options hook (data ++ [last]) (.start copy.options) [] [] =
          iterate copy.options hook [last] ⟨d, false⟩ batch read := by
    have whole : payloads data = Utf8.encode (lines copy.options some_) := by
      rw [bytes, sent, Copy.encode_lines]
      rfl
    have valid : [] ++ payloads data <+: Utf8.encode (lines copy.options some_) := by
      rw [whole]
      exact List.prefix_rfl
    have fresh : CopyInDecoder.Fed copy.options [] ([] ++ []) (.start copy.options) :=
      CopyInDecoder.start_fed copy.options
    obtain ⟨read, batch, d, fed, same⟩ := iterate_data all tags fresh valid [last]
    rw [List.nil_append, whole] at fed
    exact ⟨read, batch, d, fed, same⟩
  cases result : (copyOut rt ty s statement copy c).2.2 with
  | ok n =>
    rw [result] at kept_
    obtain ⟨count, sent⟩ := kept_
    obtain ⟨read, batch, d, fed, same⟩ := arrives sent
    rw [sent, if_pos rfl] at ends
    refine ⟨count, d, ?_⟩
    rw [same, iterate_done all ends fed, textRows_lines carried, behind]
  | error e =>
    rw [result] at kept_
    obtain ⟨some_, part, sent⟩ := kept_
    obtain ⟨read, batch, d, fed, same⟩ := arrives sent
    rw [sent, if_neg Bool.false_ne_true] at ends
    refine ⟨read ++ batch, d, ?_, ?_⟩
    · rw [fed_lines (carried.of_prefix part) fed, ← behind]
      exact part.drop _
    · rw [same, iterate_fail all ends]

end Results

/-- A table of one row, copied in the text format. -/
def ledgerRow : Row := [some ['a', '\t', 'b'], none]

def ledger : Session Unit Unit Text Text Text Text :=
  { echo with copyOut := fun _ reached =>
      (reached, [], .ok ⟨[fun reached => (reached, [], .ok ledgerRow)],
        fun reached => (reached, [], .ok ())⟩) }

theorem ledger_serves : Serves asText ledger [] [] [ledgerRow] where
  names := fun _ _ found => (Except.ok.inj found).symm
  rows := by
    rintro reached source found
    obtain rfl := Except.ok.inj found
    refine .cons ?_ .nil
    intro reached row handed texts shown
    obtain rfl := Except.ok.inj handed
    exact (Except.ok.inj shown).symm

/-- Cut inside an escape, with a Flush between the pieces. -/
def ledgerData : List Message :=
  [⟨Tag.COPY_DATA, [97, 92]⟩, ⟨Tag.FLUSH, []⟩, ⟨Tag.COPY_DATA, [116, 98, 9, 92, 78, 10]⟩]

def readsAll : CopyIn.Hook Unit where
  act := fun _ => none
  after := fun read _ => (⟨(), .I⟩, .ok (some read.length))

def ledgerCopy : Dispatch.CopyStatement := ⟨false, {}, 2⟩

theorem ledger_copied : ∃ d, iterate {} readsAll (ledgerData ++ [⟨Tag.COPY_DONE, []⟩]) (.start {})
    [] [] = ⟨[], ⟨d, true⟩, [ledgerRow], readsAll.after [ledgerRow] .exhausted⟩ := by
  have carried : Carries ledgerCopy.options (withHeader ledgerCopy.options [] [ledgerRow]) :=
    .text ⟨rfl, rfl, by decide, by decide⟩ (by decide)
  have copied : (copyOut plain asText ledger [] ledgerCopy ⟨(), idle, [], false, false⟩).2.2 =
      .ok 1 := rfl
  have relayed : Relayed (kept (copyOut plain asText ledger [] ledgerCopy
      ⟨(), idle, [], false, false⟩).2.1) ledgerData ⟨Tag.COPY_DONE, []⟩ :=
    ⟨by decide, by decide +kernel, by decide +kernel⟩
  have all : ∀ read, readsAll.act read = none := fun _ => rfl
  have across := copied_across plain ledger_serves carried _ relayed all
  rw [copied] at across
  exact across.2

end PgMimic.CopyPipe
