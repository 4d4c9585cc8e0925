import SecureMessenger.Persistence.Envelope

/-!
# The database of the client state

A file holds one table, `client_state`, with at most one row. The image records
what the store reads of a file: the two header integers, the schema listing, the
answers of the table pragmas, and the rows. The text of the table is compared as
a whole in the source, so it is one value here and any other text is another.

`PRAGMA integrity_check` covers the storage of the pages, the constraints of the
rows and the uniqueness of the integer primary key. The first is a bit of the
image, the other two are computed from the rows.
-/

namespace SecureMessenger

open Fallible

def applicationId : Int := 0x534D534C
def userVersion : Int := 1
def slot : Int := 1
def wrappedDekMaxBytes : Nat := 8192
def nonceBytes : Nat := 24

/-- One row of `client_state`. -/
structure StateRow where
  slot : Int
  profileId : Bytes
  generation : Int
  envelopeVersion : Int
  stateSchemaVersion : Int
  cryptoSuite : Int
  keyRef : Bytes
  wrappedDek : Bytes
  nonce : Bytes
  ciphertext : Bytes
deriving DecidableEq

/-- The `CHECK` constraints of the table. -/
def StateRow.checks (row : StateRow) : Bool :=
  row.slot = 1 ∧ row.profileId.length = 16 ∧ row.generation ≥ 1 ∧ row.envelopeVersion = 1 ∧
    row.stateSchemaVersion = 1 ∧ row.cryptoSuite = 1 ∧ row.keyRef.length = 16 ∧
    1 ≤ row.wrappedDek.length ∧ row.wrappedDek.length ≤ 8192 ∧ row.nonce.length = 24 ∧
    16 ≤ row.ciphertext.length ∧ row.ciphertext.length ≤ 8388608

/-- The text of a schema object. -/
inductive SchemaSql
  | clientState
  | other (text : String)
deriving DecidableEq

/-- One entry of `sqlite_schema`. -/
structure SchemaObject where
  type : String
  name : String
  tblName : String
  sql : Option SchemaSql
deriving DecidableEq

/-- One entry of `pragma_table_list`. -/
structure TableListEntry where
  name : String
  type : String
  ncol : Int
  wr : Int
  strict : Int
deriving DecidableEq

/-- One entry of `pragma_table_xinfo`. -/
structure ColumnInfo where
  cid : Int
  name : String
  type : String
  notNull : Int
  default : Option String
  pk : Int
  hidden : Int
deriving DecidableEq

structure StateDb where
  applicationId : Int
  userVersion : Int
  objects : List SchemaObject
  tableList : List TableListEntry
  tableXinfo : List ColumnInfo
  indexCount : Int
  foreignKeyCount : Int
  intact : Bool
  foreignKeyProblem : Bool
  rows : List StateRow
deriving DecidableEq

def clientStateObject : SchemaObject := ⟨"table", "client_state", "client_state", some .clientState⟩

def schemaTable : TableListEntry := ⟨"sqlite_schema", "table", 5, 0, 0⟩
def clientStateTable : TableListEntry := ⟨"client_state", "table", 10, 0, 1⟩

/-- Every column is required, has no default and is not hidden. -/
def clientStateColumns : List ColumnInfo :=
  [("slot", "INTEGER", 1), ("profile_id", "BLOB", 0), ("generation", "INTEGER", 0),
    ("envelope_version", "INTEGER", 0), ("state_schema_version", "INTEGER", 0),
    ("crypto_suite", "INTEGER", 0), ("key_ref", "BLOB", 0), ("wrapped_dek", "BLOB", 0),
    ("nonce", "BLOB", 0), ("ciphertext", "BLOB", 0)].mapIdx
      fun index (name, type, pk) => ⟨index, name, type, 1, none, pk, 0⟩

namespace StateDb

/-- A new file. -/
def empty : StateDb where
  applicationId := 0
  userVersion := 0
  objects := []
  tableList := [schemaTable]
  tableXinfo := []
  indexCount := 0
  foreignKeyCount := 0
  intact := true
  foreignKeyProblem := false
  rows := []

/-- Whether the integrity check answers `ok`. -/
def integrityOk (db : StateDb) : Bool :=
  db.intact ∧ db.rows.all StateRow.checks ∧ (db.rows.map StateRow.slot).Nodup

def validateEmptyDatabase (db : StateDb) : Except LabError Unit :=
  rejectIf (db.applicationId ≠ 0 ∨ db.userVersion ≠ 0 ∨ db.objects.length ≠ 0 ∨
    db.integrityOk = false) .storage

/-- The header integers and the one table, which must not exist yet. -/
def createSchema (db : StateDb) : Except LabError StateDb := do
  rejectIf (db.objects.any (fun object => object.name = "client_state")) .storage
  .ok { db with
    applicationId := SecureMessenger.applicationId
    userVersion := SecureMessenger.userVersion
    objects := clientStateObject :: db.objects
    tableList := clientStateTable :: db.tableList
    tableXinfo := clientStateColumns
    indexCount := 0
    foreignKeyCount := 0
    rows := [] }

def validateTableList (db : StateDb) : Except LabError Unit :=
  rejectIf (db.tableList ≠ [clientStateTable, schemaTable]) .storage

def validateTableXinfo (db : StateDb) : Except LabError Unit :=
  rejectIf (db.tableXinfo ≠ clientStateColumns) .storage

def validateNoIndexesOrForeignKeys (db : StateDb) : Except LabError Unit :=
  rejectIf (db.indexCount ≠ 0 ∨ db.foreignKeyCount ≠ 0) .storage

def validateSchema (db : StateDb) : Except LabError Unit := do
  rejectIf (db.applicationId ≠ SecureMessenger.applicationId ∨
    db.userVersion ≠ SecureMessenger.userVersion) .storage
  rejectIf (db.objects ≠ [clientStateObject]) .storage
  db.validateTableList
  db.validateTableXinfo
  db.validateNoIndexesOrForeignKeys
  rejectIf (db.integrityOk = false) .storage
  rejectIf (db.foreignKeyProblem = true) .storage

/-- Insertion checks the constraints and the primary key. -/
def insertRow (db : StateDb) (row : StateRow) : Except LabError StateDb := do
  rejectIf (row.checks = false) .storage
  rejectIf (db.rows.any (fun other => other.slot = row.slot)) .storage
  .ok { db with rows := db.rows ++ [row] }

/-- An update checks the constraints of every row it changes, and reports how
many there were. -/
def updateRows (db : StateDb) (selected : StateRow → Bool) (change : StateRow → StateRow) :
    Except LabError (Nat × StateDb) := do
  rejectIf (db.rows.any (fun row => selected row && !(change row).checks)) .storage
  .ok (db.rows.countP selected,
    { db with rows := db.rows.map fun row => if selected row then change row else row })

end StateDb

/-- The columns a reader keeps. -/
structure StoredRow where
  generation : UInt64
  wrappedDek : Bytes
  nonce : StateNonce
  ciphertext : Bytes
deriving DecidableEq

/-- Lengths and versions are checked before any column is loaded, and the profile
columns before the rest is used. -/
def readRow (db : StateDb) (binding : ProfileBinding) : Except LabError StoredRow :=
  match db.rows.find? (fun row => row.slot = slot) with
  | none => .error .storage
  | some row => do
      rejectIf (row.profileId.length ≠ 16 ∨ row.generation < 1 ∨
        row.envelopeVersion ≠ envelopeVersion ∨ row.stateSchemaVersion ≠ stateSchemaVersion ∨
        row.cryptoSuite ≠ cryptoSuite ∨ row.keyRef.length ≠ 16 ∨ row.wrappedDek.length < 1 ∨
        row.wrappedDek.length > wrappedDekMaxBytes ∨ row.nonce.length ≠ nonceBytes ∨
        row.ciphertext.length < 16 ∨ row.ciphertext.length > maxCiphertextBytes) .storage
      rejectIf (row.profileId ≠ binding.profileId.toList ∨ row.keyRef ≠ binding.keyRef.toList)
        .storage
      match FixedBytes.fromSlice 24 row.nonce, toU64 row.generation with
      | some nonce, some generation =>
          .ok { generation, wrappedDek := row.wrappedDek, nonce, ciphertext := row.ciphertext }
      | _, _ => .error .storage

namespace StateDb

/-- An image with the schema of the store, whatever its rows. -/
structure HasSchema (db : StateDb) : Prop where
  application : db.applicationId = SecureMessenger.applicationId
  version : db.userVersion = SecureMessenger.userVersion
  objects : db.objects = [clientStateObject]
  tables : db.tableList = [clientStateTable, schemaTable]
  columns : db.tableXinfo = clientStateColumns
  indexes : db.indexCount = 0
  foreignKeys : db.foreignKeyCount = 0
  intact : db.intact = true
  references : db.foreignKeyProblem = false

theorem HasSchema.withRows {db : StateDb} (schema : db.HasSchema) (rows : List StateRow) :
    { db with rows }.HasSchema :=
  ⟨schema.application, schema.version, schema.objects, schema.tables, schema.columns,
    schema.indexes, schema.foreignKeys, schema.intact, schema.references⟩

/-- Rows that pass the constraints of the table. -/
structure RowsValid (rows : List StateRow) : Prop where
  checks : ∀ row ∈ rows, row.checks = true
  distinct : (rows.map StateRow.slot).Nodup

theorem integrityOk_eq_true {db : StateDb} :
    db.integrityOk = true ↔ db.intact = true ∧ RowsValid db.rows := by
  simp only [integrityOk, decide_eq_true_eq, List.all_eq_true]
  constructor
  · rintro ⟨intact, checks, distinct⟩
    exact ⟨intact, checks, distinct⟩
  · rintro ⟨intact, checks, distinct⟩
    exact ⟨intact, checks, distinct⟩

theorem validateSchema_eq_ok {db : StateDb} {u : Unit} :
    db.validateSchema = .ok u ↔ db.HasSchema ∧ RowsValid db.rows := by
  simp only [validateSchema, validateTableList, validateTableXinfo,
    validateNoIndexesOrForeignKeys, bind_eq_ok, rejectIf_eq_ok, not_or, ne_eq, not_not,
    Bool.not_eq_false, Bool.not_eq_true, integrityOk_eq_true, exists_const]
  constructor
  · rintro ⟨⟨application, version⟩, objects, tables, columns, ⟨indexes, keys⟩,
      ⟨intact, valid⟩, references⟩
    exact ⟨⟨application, version, objects, tables, columns, indexes, keys, intact, references⟩,
      valid⟩
  · rintro ⟨schema, valid⟩
    exact ⟨⟨schema.application, schema.version⟩, schema.objects, schema.tables, schema.columns,
      ⟨schema.indexes, schema.foreignKeys⟩, ⟨schema.intact, valid⟩, schema.references⟩

theorem updateRows_eq_ok {db db' : StateDb} {selected : StateRow → Bool}
    {change : StateRow → StateRow} {changed : Nat}
    (h : db.updateRows selected change = .ok (changed, db')) :
    changed = db.rows.countP selected ∧
      db' = { db with
        rows := db.rows.map fun row => if selected row then change row else row } := by
  simp only [updateRows, bind_eq_ok, Except.ok.injEq, Prod.mk.injEq] at h
  obtain ⟨_, _, rfl, rfl⟩ := h
  exact ⟨rfl, rfl⟩

/-- The constraint on the slot leaves room for one row only. -/
theorem RowsValid.eq_singleton {rows : List StateRow} (valid : RowsValid rows) {row : StateRow}
    (member : row ∈ rows) : rows = [row] := by
  have slots : ∀ other ∈ rows, other.slot = 1 := by
    intro other listed
    have checked := valid.checks other listed
    simp only [StateRow.checks, decide_eq_true_eq] at checked
    exact checked.1
  match rows, member, valid.distinct, slots with
  | [only], member, _, _ => rw [List.mem_singleton.mp member]
  | first :: second :: rest, _, distinct, slots =>
      rw [List.map_cons, List.map_cons, List.nodup_cons] at distinct
      have same : first.slot = second.slot :=
        (slots first (by simp)).trans (slots second (by simp)).symm
      exact absurd (by simp [same]) distinct.1

end StateDb

end SecureMessenger
