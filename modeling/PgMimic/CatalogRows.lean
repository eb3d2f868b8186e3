import PgMimic.CopyTokens
import PgMimic.Declared
import PgMimic.Lib.Outcomes
import PgMimic.PgTypes

/-!
# The rows of pg_catalog

`_build_pg_catalog` goes through the declared tables, and through the keys of each. A table
gets a row of `pg_class` and one of `pg_attribute` for each column, a key gets a row of
`pg_class` for its index, one of `pg_index` and one of `pg_constraint`. The OIDs come from the
positions of the tables and from the number of keys so far.
-/

namespace PgMimic.Catalog

open PgMimic.Copy (Text)
open PgMimic.Declared

/-! ## Declared types -/

/-- `DECLARED_TYPE_OIDS`, with the constants that its names stand for. -/
def declaredTypeOids : List (String × Nat) :=
  [("integer", 23), ("int", 23), ("int4", 23), ("bigint", 20), ("int8", 20), ("smallint", 21),
    ("int2", 21), ("text", 25), ("varchar", 1043), ("character varying", 1043),
    ("character", 1042), ("boolean", 16), ("bool", 16), ("real", 700), ("double precision", 701),
    ("numeric", 1700), ("date", 1082), ("time", 1083), ("timestamp", 1114), ("timestamptz", 1184),
    ("interval", 1186), ("uuid", 2950), ("json", 114), ("jsonb", 3802), ("bytea", 17)]

/-- The loop that takes `[]` off the end, on the text from its end. -/
def stripBrackets : Text → Text
  | ']' :: '[' :: rest => stripBrackets (rest.dropWhile isSpace)
  | text => text
termination_by text => text.length
decreasing_by
  have := (List.dropWhile_sublist (p := isSpace) (l := rest)).length_le
  rw [List.length_cons, List.length_cons]
  omega

/-- `DECLARED_TYPE_OIDS.get`, with text for what is not listed. -/
def elementOid (element : Text) : Nat :=
  ((declaredTypeOids.find? fun entry => entry.1.toList = element).map Prod.snd).getD 25

/-- `ARRAY_OID.get(oid, oid)`. -/
def arrayOidOver (oid : Nat) : Nat :=
  ((Arrays.arrayOids.find? fun entry => entry.1 = oid).map Prod.snd).getD oid

/-- `oid_for_declared_type`. No spelling of the table has a letter that `lower` makes out of
one outside ASCII. -/
def oidForDeclaredType (declared : Text) : Nat :=
  let name := (Endpoint.strip declared).map Char.toLower
  let element := (stripBrackets name.reverse).reverse
  let oid := elementOid element
  if element = name then oid else arrayOidOver oid

/-- `_storage_for`. -/
def storageFor (oid : Nat) : String :=
  if Arrays.isArrayOid oid ∨ oid ∈ [25, 1043, 1042, 17, 114, 3802, 1700] then "x" else "p"

/-! ## Identifiers -/

/-- The match of `_PLAIN_IDENTIFIER`. Its `$` also stands in front of a newline at the end. -/
def isPlainIdentifier : Text → Bool
  | [] => false
  | c :: rest =>
    (c.isLower || c = '_') &&
      (if rest.getLast? = some '\n' then rest.dropLast else rest).all fun c =>
        c.isLower || c.isDigit || c = '_' || c = '$'

/-- `_rendered_identifier`. -/
def renderedIdentifier (name : Text) : Text :=
  if isPlainIdentifier name then name
  else '"' :: (name.flatMap fun c => if c = '"' then ['"', '"'] else [c]) ++ ['"']

/-! ## Rows -/

structure ClassRow where
  oid : Nat
  relname : Text
  relnamespace : Nat
  relkind : String
  relowner : Nat
  relam : Nat
  reltuples : Int
  relpages : Nat
  relhasindex : Bool
  relpersistence : String
  reltablespace : Nat
  relispartition : Bool
  relrowsecurity : Bool
  relforcerowsecurity : Bool
  relreplident : String
  reloftype : Nat
  relhastriggers : Bool
  relchecks : Nat
  relhasrules : Bool
  reltoastrelid : Nat
deriving DecidableEq

structure AttributeRow where
  attrelid : Nat
  attname : Text
  atttypid : Nat
  attnum : Nat
  attnotnull : Bool
  atthasdef : Bool
  attisdropped : Bool
  attidentity : String
  attgenerated : String
  attcollation : Nat
  atttypmod : Int
  attstattarget : Int
  attformattype : Text
  attstorage : String
  attcompression : String
deriving DecidableEq

structure IndexRow where
  indexdef : Text
  indexrelid : Nat
  indrelid : Nat
  indisprimary : Bool
  indisunique : Bool
  indisclustered : Bool
  indisvalid : Bool
  indisreplident : Bool
  indkey : Text
deriving DecidableEq

structure ConstraintRow where
  condef : Text
  oid : Nat
  conname : Text
  conrelid : Nat
  contype : String
  conparentid : Nat
  conindid : Nat
  confrelid : Nat
  condeferrable : Bool
  condeferred : Bool
  convalidated : Bool
  connoinherit : Bool
  conislocal : Bool
  coninhcount : Nat
  conkey : Text
deriving DecidableEq

def publicOid : Nat := 2200

def ownerOid : Nat := 10

def heapAmOid : Nat := 2

def btreeAmOid : Nat := 403

def firstUserOid : Nat := 16384

def firstIndexOid : Nat := firstUserOid + 100000

def firstConstraintOid : Nat := firstUserOid + 200000

/-- The row of a table. -/
def tableRow (index : Nat) (table : Table) : ClassRow where
  oid := firstUserOid + index
  relname := table.name
  relnamespace := publicOid
  relkind := "r"
  relowner := ownerOid
  relam := heapAmOid
  reltuples := -1
  relpages := 0
  relhasindex := table.primaryKey ≠ [] ∨ table.unique ≠ []
  relpersistence := "p"
  reltablespace := 0
  relispartition := false
  relrowsecurity := false
  relforcerowsecurity := false
  relreplident := "d"
  reloftype := 0
  relhastriggers := false
  relchecks := 0
  relhasrules := false
  reltoastrelid := 0

/-- The row of the index of a key. -/
def keyRow (indexOid : Nat) (keyName : Text) : ClassRow where
  oid := indexOid
  relname := keyName
  relnamespace := publicOid
  relkind := "i"
  relowner := ownerOid
  relam := btreeAmOid
  reltuples := -1
  relpages := 0
  relhasindex := false
  relpersistence := "p"
  reltablespace := 0
  relispartition := false
  relrowsecurity := false
  relforcerowsecurity := false
  relreplident := "n"
  reloftype := 0
  relhastriggers := false
  relchecks := 0
  relhasrules := false
  reltoastrelid := 0

def attributeRow (index : Nat) (table : Table) (column : (Text × Text) × Nat) : AttributeRow where
  attrelid := firstUserOid + index
  attname := column.1.1
  atttypid := oidForDeclaredType column.1.2
  attnum := column.2
  attnotnull := column.1.1 ∈ table.primaryKey
  atthasdef := false
  attisdropped := false
  attidentity := ""
  attgenerated := ""
  attcollation := 0
  atttypmod := -1
  attstattarget := -1
  attformattype := column.1.2
  attstorage := storageFor (oidForDeclaredType column.1.2)
  attcompression := ""

/-- `_key_positions`. The columns of a key are columns of its table. -/
def keyPositions (table : Table) (key : Key) : List Nat :=
  key.columns.map fun column => (table.columns.map Prod.fst).idxOf column + 1

def keyColumns (key : Key) : Text := ", ".toList.intercalate (key.columns.map renderedIdentifier)

def indexRow (index : Nat) (table : Table) (key : Key) (keyName : Text) (indexOid : Nat) :
    IndexRow where
  indexdef := "CREATE UNIQUE INDEX ".toList ++ renderedIdentifier keyName ++ " ON ".toList ++
    renderedIdentifier table.name ++ " USING btree (".toList ++ keyColumns key ++ ")".toList
  indexrelid := indexOid
  indrelid := firstUserOid + index
  indisprimary := key.isPrimary
  indisunique := true
  indisclustered := false
  indisvalid := true
  indisreplident := false
  indkey := " ".toList.intercalate ((keyPositions table key).map numberText)

def constraintRow (index : Nat) (table : Table) (key : Key) (keyName : Text)
    (indexOid constraintOid : Nat) : ConstraintRow where
  condef := (if key.isPrimary then "PRIMARY KEY" else "UNIQUE").toList ++ " (".toList ++
    keyColumns key ++ ")".toList
  oid := constraintOid
  conname := keyName
  conrelid := firstUserOid + index
  contype := if key.isPrimary then "p" else "u"
  conparentid := 0
  conindid := indexOid
  confrelid := 0
  condeferrable := false
  condeferred := false
  convalidated := true
  connoinherit := false
  conislocal := true
  coninhcount := 0
  conkey := '{' :: ",".toList.intercalate ((keyPositions table key).map numberText) ++ ['}']

/-! ## The loops -/

/-- The lists that `_build_pg_catalog` fills. -/
structure PgCatalog where
  classRows : List ClassRow
  attributeRows : List AttributeRow
  indexRows : List IndexRow
  constraintRows : List ConstraintRow
  keyNames : List Text

/-- The part of the outer loop in front of the inner one over the keys. -/
def PgCatalog.addTable (c : PgCatalog) (index : Nat) (table : Table) : PgCatalog :=
  { c with
    classRows := c.classRows ++ [tableRow index table]
    attributeRows := c.attributeRows ++ (table.columns.zipIdx 1).map (attributeRow index table) }

/-- The body of the inner loop. -/
def PgCatalog.addKey (index : Nat) (table : Table) (c : PgCatalog) (key : Key) : PgCatalog :=
  let name := keyName key c.keyNames
  let indexOid := firstIndexOid + c.indexRows.length
  let constraintOid := firstConstraintOid + c.constraintRows.length
  { classRows := c.classRows ++ [keyRow indexOid name]
    attributeRows := c.attributeRows
    indexRows := c.indexRows ++ [indexRow index table key name indexOid]
    constraintRows :=
      c.constraintRows ++ [constraintRow index table key name indexOid constraintOid]
    keyNames := c.keyNames ++ [name] }

/-- `_build_pg_catalog`, but for the tables that do not depend on what is declared. -/
def buildPgCatalog (declared : Schema) : PgCatalog :=
  declared.tables.zipIdx.foldl (fun c entry =>
    (declaredKeys entry.1).foldl (PgCatalog.addKey entry.2 entry.1) (c.addTable entry.2 entry.1))
    ⟨[], [], [], [], []⟩

/-! ## What the loops have reported -/

/-- A declared key, with its table and the position of that. -/
structure Place where
  index : Nat
  table : Table
  key : Key

/-- The keys in the order of the loops. -/
def places (tables : List (Table × Nat)) : List Place :=
  tables.flatMap fun entry => (declaredKeys entry.1).map fun key => ⟨entry.2, entry.1, key⟩

/-- A key that has got its name and its number. -/
structure Entry extends Place where
  name : Text
  number : Nat

namespace Entry

def classRow (e : Entry) : ClassRow := keyRow (firstIndexOid + e.number) e.name

def indexRow (e : Entry) : IndexRow :=
  Catalog.indexRow e.index e.table e.key e.name (firstIndexOid + e.number)

def constraintRow (e : Entry) : ConstraintRow :=
  Catalog.constraintRow e.index e.table e.key e.name (firstIndexOid + e.number)
    (firstConstraintOid + e.number)

end Entry

def register (entries : List Entry) (place : Place) : List Entry :=
  entries ++ [⟨place, keyName place.key (entries.map Entry.name), entries.length⟩]

/-- The keys of a schema, each behind those in front of it. -/
def entries (declared : Schema) : List Entry :=
  (places declared.tables.zipIdx).foldl register []

/-- The keys at these places have been named and numbered in turn. -/
structure Registered (places : List Place) (entries : List Entry) : Prop where
  placed : entries.map Entry.toPlace = places
  numbers : entries.map Entry.number = List.range entries.length
  names : FreshNames.Given candidates (places.map Place.key) (entries.map Entry.name)

theorem Registered.register {places : List Place} {entries : List Entry}
    (h : Registered places entries) (place : Place) :
    Registered (places ++ [place]) (Catalog.register entries place) := by
  refine ⟨?_, ?_, ?_⟩
  · rw [Catalog.register, List.map_append, h.placed]
    rfl
  · rw [Catalog.register, List.map_append, h.numbers, List.length_append, List.length_singleton,
      List.range_succ]
    rfl
  · obtain ⟨counter, named, free, earlier⟩ := keyName_spec place.key (entries.map Entry.name)
    rw [Catalog.register, List.map_append, List.map_append, List.map_singleton,
      List.map_singleton, named]
    exact .snoc h.names free earlier

theorem registered (places : List Place) :
    Registered places (places.foldl Catalog.register []) := by
  induction places using List.reverseRecOn with
  | nil => exact ⟨rfl, rfl, .nil⟩
  | append_singleton places place ih =>
    rw [List.foldl_append]
    exact ih.register place

/-- What the lists hold behind these tables and these keys. -/
structure Reported (tables : List (Table × Nat)) (entries : List Entry) (c : PgCatalog) :
    Prop where
  tableRows : (c.classRows.filter fun row => row.relkind = "r") =
    tables.map fun entry => tableRow entry.2 entry.1
  keyRows : (c.classRows.filter fun row => row.relkind = "i") = entries.map Entry.classRow
  kinds : ∀ row ∈ c.classRows, row.relkind = "r" ∨ row.relkind = "i"
  attributeRows : c.attributeRows = tables.flatMap fun entry =>
    (entry.1.columns.zipIdx 1).map (attributeRow entry.2 entry.1)
  indexRows : c.indexRows = entries.map Entry.indexRow
  constraintRows : c.constraintRows = entries.map Entry.constraintRow
  keyNames : c.keyNames = entries.map Entry.name

/-- The rows of `pg_class` are those of the tables and those of the keys. -/
theorem Reported.perm {tables : List (Table × Nat)} {entries : List Entry} {c : PgCatalog}
    (h : Reported tables entries c) :
    c.classRows.Perm ((tables.map fun entry => tableRow entry.2 entry.1) ++
      entries.map Entry.classRow) := by
  have others : (c.classRows.filter fun row => !decide (row.relkind = "r")) =
      c.classRows.filter fun row => row.relkind = "i" := by
    refine List.filter_congr fun row member => ?_
    rcases h.kinds row member with table | index
    · rw [table]
      rfl
    · rw [index]
      rfl
  rw [← h.tableRows, ← h.keyRows, ← others]
  exact (List.filter_append_perm _ _).symm

section Loops

variable {tables : List (Table × Nat)} {entries : List Entry} {c : PgCatalog}

theorem Reported.addTable (h : Reported tables entries c) (index : Nat) (table : Table) :
    Reported (tables ++ [(table, index)]) entries (c.addTable index table) := by
  refine ⟨?_, ?_, ?_, ?_, h.indexRows, h.constraintRows, h.keyNames⟩
  · rw [PgCatalog.addTable, List.filter_append, h.tableRows, List.map_append]
    rfl
  · rw [PgCatalog.addTable, List.filter_append, h.keyRows]
    exact List.append_nil _
  · exact List.forall_mem_append.mpr ⟨h.kinds, List.forall_mem_singleton.mpr (Or.inl rfl)⟩
  · rw [PgCatalog.addTable, h.attributeRows, List.flatMap_append, List.flatMap_singleton]

theorem Reported.addKey (h : Reported tables entries c) (place : Place) :
    Reported tables (register entries place) (c.addKey place.index place.table place.key) := by
  have indexes : c.indexRows.length = entries.length := by rw [h.indexRows, List.length_map]
  have constraints : c.constraintRows.length = entries.length := by
    rw [h.constraintRows, List.length_map]
  refine ⟨?_, ?_, ?_, h.attributeRows, ?_, ?_, ?_⟩
  · rw [PgCatalog.addKey, List.filter_append, h.tableRows]
    exact List.append_nil _
  · rw [PgCatalog.addKey, List.filter_append, h.keyRows, indexes, h.keyNames, register,
      List.map_append]
    rfl
  · exact List.forall_mem_append.mpr ⟨h.kinds, List.forall_mem_singleton.mpr (Or.inr rfl)⟩
  · rw [PgCatalog.addKey, indexes, h.keyNames, h.indexRows, register, List.map_append]
    rfl
  · rw [PgCatalog.addKey, indexes, constraints, h.keyNames, h.constraintRows, register,
      List.map_append]
    rfl
  · rw [PgCatalog.addKey, h.keyNames, register, List.map_append]
    rfl

theorem Reported.addKeys (h : Reported tables entries c) (index : Nat) (table : Table)
    (keys : List Key) :
    Reported tables ((keys.map fun key => ⟨index, table, key⟩).foldl register entries)
      (keys.foldl (PgCatalog.addKey index table) c) := by
  induction keys generalizing entries c with
  | nil => exact h
  | cons key keys ih => exact ih (h.addKey ⟨index, table, key⟩)

/-- The outer loop over further tables. -/
theorem Reported.run (h : Reported tables entries c) (later : List (Table × Nat)) :
    Reported (tables ++ later) ((places later).foldl register entries)
      (later.foldl (fun c entry =>
        (declaredKeys entry.1).foldl (PgCatalog.addKey entry.2 entry.1)
          (c.addTable entry.2 entry.1)) c) := by
  induction later generalizing tables entries c with
  | nil =>
    rw [List.append_nil]
    exact h
  | cons entry later ih =>
    rw [List.append_cons, places, List.flatMap_cons, List.foldl_append]
    exact ih ((h.addTable entry.2 entry.1).addKeys entry.2 entry.1 (declaredKeys entry.1))

end Loops

theorem reported (declared : Schema) :
    Reported declared.tables.zipIdx (entries declared) (buildPgCatalog declared) := by
  have start : Reported [] [] ⟨[], [], [], [], []⟩ :=
    ⟨rfl, rfl, List.forall_mem_nil _, rfl, rfl, rfl, rfl⟩
  exact start.run declared.tables.zipIdx

end PgMimic.Catalog
