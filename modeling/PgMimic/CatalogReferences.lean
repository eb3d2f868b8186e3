import PgMimic.InformationSchema
import PgMimic.RelationNames

/-!
# References between the rows of the catalog

Clients join `pg_index`, `pg_constraint` and `pg_attribute` with `pg_class` by OIDs and
columns by their numbers. The OIDs of tables and of indexes come from two ranges that do not
meet below 100000 tables, and each row names rows that are there.
-/

namespace PgMimic.Catalog

open PgMimic.Copy (Text)
open PgMimic.Declared

/-! ## What the rows refer to -/

/-- An OID is that of a row of `pg_class` of this kind and name. -/
def Names (c : PgCatalog) (oid : Nat) (relkind : String) (relname : Text) : Prop :=
  ∃ row ∈ c.classRows, row.oid = oid ∧ row.relkind = relkind ∧ row.relname = relname

def Attnum (c : PgCatalog) (tableOid : Nat) (column : Text) (number : Nat) : Prop :=
  ∃ row ∈ c.attributeRows, row.attrelid = tableOid ∧ row.attname = column ∧ row.attnum = number

/-- The index and the constraint of a key. -/
structure ReportsKey (c : PgCatalog) (key : Key) (rows : IndexRow × ConstraintRow) : Prop where
  index : Names c rows.1.indexrelid "i" rows.2.conname
  table : Names c rows.1.indrelid "r" key.table
  conindid : rows.2.conindid = rows.1.indexrelid
  conrelid : rows.2.conrelid = rows.1.indrelid
  primary : rows.1.indisprimary = key.isPrimary ∧
    rows.2.contype = if key.isPrimary then "p" else "u"
  numbers : ∃ attnums, List.Forall₂ (Attnum c rows.1.indrelid) key.columns attnums ∧
    rows.1.indkey = " ".toList.intercalate (attnums.map numberText) ∧
    rows.2.conkey = '{' :: ",".toList.intercalate (attnums.map numberText) ++ ['}']

/-- A row of `pg_attribute` and one of `information_schema.columns` report one column. -/
structure SameColumn (c : PgCatalog) (reported : AttributeRow) (row : InformationRow) :
    Prop where
  table : ∃ relname, Names c reported.attrelid "r" relname ∧
    row.get? "table_name" = some (some (.text relname))
  column : row.get? "column_name" = some (some (.text reported.attname))
  position : row.get? "ordinal_position" = some (some (.int reported.attnum))
  nullable : reported.attnotnull = true ↔
    row.get? "is_nullable" = some (some (.text "NO".toList))

/-- What joins over the catalog rely on. -/
structure References (declared : Schema) (c : PgCatalog) (s : InformationSchema) : Prop where
  oids : (c.classRows.map ClassRow.oid).Nodup
  tables : ((c.classRows.filter fun row => row.relkind = "r").map fun row =>
    (row.relname, row.oid)) = declared.tables.zipIdx.map fun entry => (entry.1.name, 16384 + entry.2)
  indexes : ∀ row ∈ c.indexRows,
    (∃ relname, Names c row.indexrelid "i" relname) ∧ ∃ relname, Names c row.indrelid "r" relname
  constraints : ∀ row ∈ c.constraintRows,
    (∃ relname, Names c row.conindid "i" relname) ∧ ∃ relname, Names c row.conrelid "r" relname
  keys : List.Forall₂ (ReportsKey c) (declared.tables.flatMap declaredKeys)
    (c.indexRows.zip c.constraintRows)
  aligned : c.indexRows.length = c.constraintRows.length
  once : c.indexRows.map IndexRow.indexrelid =
    (c.classRows.filter fun row => row.relkind = "i").map ClassRow.oid
  attnums : ∀ row ∈ c.attributeRows, ∀ row' ∈ c.attributeRows,
    row.attrelid = row'.attrelid → row.attname = row'.attname → row = row'
  columns : List.Forall₂ (SameColumn c) c.attributeRows s.columnsRows

/-! ## Rows that are there -/

section Rows

variable {tables : List (Table × Nat)} {es : List Entry} {c : PgCatalog}

theorem Reported.names_table (h : Reported tables es c) {table : Table} {index : Nat}
    (member : (table, index) ∈ tables) : Names c (firstUserOid + index) "r" table.name := by
  have row : tableRow index table ∈ c.classRows.filter fun row => row.relkind = "r" := by
    rw [h.tableRows]
    exact List.mem_map.mpr ⟨(table, index), member, rfl⟩
  exact ⟨tableRow index table, List.mem_of_mem_filter row, rfl, rfl, rfl⟩

theorem Reported.names_index (h : Reported tables es c) {e : Entry} (member : e ∈ es) :
    Names c (firstIndexOid + e.number) "i" e.name := by
  have row : e.classRow ∈ c.classRows.filter fun row => row.relkind = "i" := by
    rw [h.keyRows]
    exact List.mem_map_of_mem member
  exact ⟨e.classRow, List.mem_of_mem_filter row, rfl, rfl, rfl⟩

/-- A column stands at the position that its name is found at. -/
theorem mem_zipIdx_of_column {table : Table} {column : Text}
    (member : column ∈ table.columns.map Prod.fst) :
    ∃ spelling, ((column, spelling), (table.columns.map Prod.fst).idxOf column + 1) ∈
      table.columns.zipIdx 1 := by
  have bound := List.idxOf_lt_length_of_mem member
  have found := List.getElem_idxOf bound
  rw [List.length_map] at bound
  rw [List.getElem_map] at found
  refine ⟨(table.columns[(table.columns.map Prod.fst).idxOf column]).2, ?_⟩
  rw [List.mk_mem_zipIdx_iff_le_and_getElem?_sub]
  refine ⟨Nat.le_add_left 1 _, ?_⟩
  rw [Nat.add_sub_cancel, List.getElem?_eq_getElem bound]
  exact congrArg some (Prod.ext found rfl)

theorem Reported.attnum (h : Reported tables es c) {table : Table} {index : Nat} {column : Text}
    (listed : (table, index) ∈ tables) (member : column ∈ table.columns.map Prod.fst) :
    Attnum c (firstUserOid + index) column ((table.columns.map Prod.fst).idxOf column + 1) := by
  obtain ⟨spelling, placed⟩ := mem_zipIdx_of_column member
  refine ⟨attributeRow index table
    ((column, spelling), (table.columns.map Prod.fst).idxOf column + 1), ?_, rfl, rfl, rfl⟩
  rw [h.attributeRows]
  exact List.mem_flatMap.mpr ⟨(table, index), listed, List.mem_map_of_mem placed⟩

theorem declaredKeys_columns {table : Table} {key : Key} (member : key ∈ declaredKeys table) :
    key.table = table.name ∧ ∀ column ∈ key.columns, column ∈ table.columns.map Prod.fst := by
  rcases List.mem_append.mp member with primary | unique
  · split at primary
    · cases primary
    · rw [List.mem_singleton.mp primary]
      exact ⟨rfl, table.primaryKey_columns⟩
  · obtain ⟨columns, listed, rfl⟩ := List.mem_map.mp unique
    exact ⟨rfl, table.unique_columns columns listed⟩

theorem Reported.reportsKey (h : Reported tables es c) {e : Entry} (member : e ∈ es)
    (listed : (e.table, e.index) ∈ tables) (declared : e.key ∈ declaredKeys e.table) :
    ReportsKey c e.key (e.indexRow, e.constraintRow) := by
  obtain ⟨named, columns⟩ := declaredKeys_columns declared
  refine ⟨h.names_index member, named ▸ h.names_table listed, rfl, rfl, ⟨rfl, rfl⟩,
    keyPositions e.table e.key, ?_, rfl, rfl⟩
  refine List.forall₂_map_right_iff.mpr (List.forall₂_same.mpr fun column inside => ?_)
  exact h.attnum listed (columns column inside)

end Rows

/-! ## The catalog of a schema -/

variable (declared : Schema)

theorem entries_place {e : Entry} (member : e ∈ entries declared) :
    (e.table, e.index) ∈ declared.tables.zipIdx ∧ e.key ∈ declaredKeys e.table := by
  have placed : e.toPlace ∈ places declared.tables.zipIdx := by
    rw [← (registered (places declared.tables.zipIdx)).placed]
    exact List.mem_map_of_mem member
  obtain ⟨entry, listed, inside⟩ := List.mem_flatMap.mp placed
  obtain ⟨key, declares, same⟩ := List.mem_map.mp inside
  rw [← same]
  exact ⟨listed, declares⟩

theorem entries_keys :
    (entries declared).map (fun e => e.key) = declared.tables.flatMap declaredKeys := by
  rw [← places_keys, ← (registered (places declared.tables.zipIdx)).placed, List.map_map]
  rfl

theorem class_oids_nodup (few : declared.tables.length < 100000) :
    ((buildPgCatalog declared).classRows.map ClassRow.oid).Nodup := by
  have tables : (declared.tables.zipIdx.map fun entry => tableRow entry.2 entry.1).map
      ClassRow.oid = (List.range' 0 declared.tables.length).map (firstUserOid + ·) := by
    rw [← List.zipIdx_map_snd 0 declared.tables, List.map_map, List.map_map]
    rfl
  have keys : ((entries declared).map Entry.classRow).map ClassRow.oid =
      (List.range (entries declared).length).map (firstIndexOid + ·) := by
    have numbers : (entries declared).map Entry.number = List.range (entries declared).length :=
      (registered _).numbers
    rw [← numbers, List.map_map, List.map_map]
    rfl
  rw [((reported declared).perm.map ClassRow.oid).nodup_iff, List.map_append, tables, keys,
    List.nodup_append]
  refine ⟨List.Nodup.map (fun _ _ => Nat.add_left_cancel) List.nodup_range',
    List.Nodup.map (fun _ _ => Nat.add_left_cancel) List.nodup_range, ?_⟩
  intro oid table oid' key same
  obtain ⟨i, inside, rfl⟩ := List.mem_map.mp table
  obtain ⟨j, -, rfl⟩ := List.mem_map.mp key
  have bound := (List.mem_range'_1.mp inside).2
  unfold firstIndexOid at same
  omega

/-- The name and the table of a column determine its row. -/
theorem attributeRows_apart (row row' : AttributeRow)
    (member : row ∈ (buildPgCatalog declared).attributeRows)
    (member' : row' ∈ (buildPgCatalog declared).attributeRows)
    (relid : row.attrelid = row'.attrelid) (name : row.attname = row'.attname) : row = row' := by
  rw [(reported declared).attributeRows] at member member'
  obtain ⟨⟨table, index⟩, listed, inside⟩ := List.mem_flatMap.mp member
  obtain ⟨⟨table', index'⟩, listed', inside'⟩ := List.mem_flatMap.mp member'
  obtain ⟨column, placed, rfl⟩ := List.mem_map.mp inside
  obtain ⟨column', placed', rfl⟩ := List.mem_map.mp inside'
  have numbered : (declared.tables.zipIdx.map Prod.snd).Nodup := by
    rw [List.zipIdx_map_snd]
    exact List.nodup_range'
  have sameTable := List.inj_on_of_nodup_map numbered listed listed' (Nat.add_left_cancel relid)
  obtain ⟨rfl, rfl⟩ := Prod.mk.inj sameTable
  have once : ((table.columns.zipIdx 1).map fun column => column.1.1).Nodup := by
    have distinct := table.distinct
    rw [← List.zipIdx_map_fst 1 table.columns, List.map_map] at distinct
    exact distinct
  rw [List.inj_on_of_nodup_map once placed placed' name]

/-! ## Both halves -/

/-- A column with the position of its table. -/
def columnsOf (tables : List (Table × Nat)) : List ((Table × Nat) × (Text × Text) × Nat) :=
  tables.flatMap fun entry => (entry.1.columns.zipIdx 1).map fun column => (entry, column)

theorem placedColumns_eq (tables : List Table) :
    placedColumns tables = (columnsOf tables.zipIdx).map fun column => (column.1.1, column.2) := by
  rw [columnsOf, List.map_flatMap, placedColumns]
  simp only [List.map_map]
  conv_lhs => rw [← List.zipIdx_map_fst 0 tables, List.flatMap_map]
  rfl

theorem SameColumn.of_describes {c : PgCatalog} {tables : List (Table × Nat)} {es : List Entry}
    (h : Reported tables es c) {column : (Table × Nat) × (Text × Text) × Nat}
    {row : InformationRow} (listed : column.1 ∈ tables)
    (describes : DescribesColumn (column.1.1, column.2) row) :
    SameColumn c (attributeRow column.1.2 column.1.1 column.2) row := by
  obtain ⟨udtName, holds⟩ := describes
  refine ⟨⟨column.1.1.name, h.names_table listed, holds _ _ ?_⟩, holds _ _ ?_, holds _ _ ?_, ?_⟩
  · simp [columnFacts]
  · simp [columnFacts, attributeRow]
  · simp [columnFacts, attributeRow]
  · rw [holds "is_nullable" (.text (if column.2.1.1 ∈ column.1.1.primaryKey then "NO"
      else "YES").toList) (by simp [columnFacts])]
    rw [attributeRow, decide_eq_true_eq]
    split
    · rename_i inside
      exact iff_of_true inside rfl
    · rename_i outside
      exact iff_of_false outside (by decide)

theorem columns_agree {s : InformationSchema} (described : Described declared.tables s) :
    List.Forall₂ (SameColumn (buildPgCatalog declared)) (buildPgCatalog declared).attributeRows
      s.columnsRows := by
  have rows : (buildPgCatalog declared).attributeRows =
      (columnsOf declared.tables.zipIdx).map fun column =>
        attributeRow column.1.2 column.1.1 column.2 := by
    rw [(reported declared).attributeRows, columnsOf, List.map_flatMap]
    simp only [List.map_map]
    rfl
  have describes := described.columnsRows
  rw [placedColumns_eq, List.forall₂_map_left_iff] at describes
  rw [rows, List.forall₂_map_left_iff]
  have listed : ∀ column ∈ columnsOf declared.tables.zipIdx, column.1 ∈ declared.tables.zipIdx := by
    intro column member
    obtain ⟨entry, inside, placed⟩ := List.mem_flatMap.mp member
    obtain ⟨_, -, rfl⟩ := List.mem_map.mp placed
    exact inside
  refine ((List.forall₂_and_left _ _).mpr ⟨listed, describes⟩).imp fun column row both => ?_
  exact .of_describes (reported declared) both.1 both.2

/-- The references between the rows hold in the catalog of every schema with fewer than 100000
tables. The number of its keys does not matter. -/
theorem references_hold (few : declared.tables.length < 100000) :
    ∃ s, buildInformationSchema declared = .ok s ∧
      References declared (buildPgCatalog declared) s := by
  obtain ⟨s, built, described⟩ := buildInformationSchema_ok declared
  have h := reported declared
  have each : ∀ e ∈ entries declared,
      ReportsKey (buildPgCatalog declared) e.key (e.indexRow, e.constraintRow) := by
    intro e member
    obtain ⟨listed, declares⟩ := entries_place declared member
    exact h.reportsKey member listed declares
  refine ⟨s, built, class_oids_nodup declared few, ?_, ?_, ?_, ?_, ?_, ?_,
    fun row member row' member' => attributeRows_apart declared row row' member member',
    columns_agree declared described⟩
  · rw [h.tableRows, List.map_map]
    rfl
  · rw [h.indexRows]
    intro row member
    obtain ⟨e, inside, rfl⟩ := List.mem_map.mp member
    exact ⟨⟨_, (each e inside).index⟩, ⟨_, (each e inside).table⟩⟩
  · rw [h.constraintRows]
    intro row member
    obtain ⟨e, inside, rfl⟩ := List.mem_map.mp member
    exact ⟨⟨_, (each e inside).index⟩, ⟨_, (each e inside).table⟩⟩
  · rw [← entries_keys, h.indexRows, h.constraintRows, List.zip_map', List.forall₂_map_left_iff,
      List.forall₂_map_right_iff]
    exact List.forall₂_same.mpr each
  · rw [h.indexRows, h.constraintRows, List.length_map, List.length_map]
  · rw [h.indexRows, h.keyRows, List.map_map, List.map_map]
    rfl

def commitFiles : Table where
  name := "commit_files".toList
  columns := [("sha".toList, "text".toList), ("path".toList, "text".toList)]
  primaryKey := ["path".toList, "sha".toList]
  unique := [["path".toList]]
  named := by decide
  spelled := by decide
  distinct := by decide
  primaryKey_columns := by decide
  primaryKey_once := by decide
  unique_columns := by decide
  unique_once := by decide
  unique_apart := by decide
  sized := by decide

def commitSchema : Schema where
  tables := [commitFiles]
  apart := by decide
  sized := by decide

theorem commitSchema_references : commitSchema.tables.length < 100000 ∧
    ∃ s, buildInformationSchema commitSchema = .ok s ∧
      References commitSchema (buildPgCatalog commitSchema) s :=
  ⟨by decide, references_hold commitSchema (by decide)⟩

end PgMimic.Catalog
