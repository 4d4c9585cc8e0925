import SecureMessenger.Relay.Operations

/-!
# Database images and opening a relay

An image is the user version, the schema manifest and the contents of a database
file. The source compares complete manifests for equality, so a manifest is
modelled by the shapes of its tables, in the order of their names: columns with
type and length constraint, primary key, and whether the table references its
mailbox with cascading deletion. The reference manifests are those of the two
schema texts.

`openAt` follows the source: an existing file is checked before it is opened
normally, the opened image is checked again, and migration and the expiry sweep
share one transaction. Journal companions of the file are not part of an image.
-/

namespace SecureMessenger

open Fallible

inductive TableName
  | mailboxes
  | messages
  | registrationNonces
  | requestNonces
  | retiredQueues
  | tombstones
  | other (id : Nat)
deriving DecidableEq

inductive ColumnName
  | queueId
  | sendKey
  | receiveKey
  | manageKey
  | createdAt
  | messageId
  | ciphertext
  | expiresAt
  | senderSignature
  | deleteAfter
  | role
  | nonce
  | queueHash
  | retiredAt
  | other (id : Nat)
deriving DecidableEq

inductive ColumnType
  | blob
  | integer
  | text
deriving DecidableEq

/-- A column, required to be present, with its length constraint if it has one. -/
structure Column where
  name : ColumnName
  type : ColumnType
  length : Option Nat
deriving DecidableEq

structure TableShape where
  name : TableName
  columns : List Column
  primaryKey : List ColumnName
  cascadesFromMailbox : Bool
deriving DecidableEq

/-- The tables of a database in the order of their names. -/
structure SchemaManifest where
  tables : List TableShape
deriving DecidableEq

namespace SchemaManifest

def empty : SchemaManifest := ⟨[]⟩

def dropTable (m : SchemaManifest) (name : TableName) : SchemaManifest :=
  ⟨m.tables.filter (fun shape => shape.name ≠ name)⟩

end SchemaManifest

/-- Position of a table name in the listing. -/
def TableName.rank : TableName → Nat
  | mailboxes => 0
  | messages => 1
  | registrationNonces => 2
  | requestNonces => 3
  | retiredQueues => 4
  | tombstones => 5
  | other id => 6 + id

namespace SchemaManifest

def insertShape (shape : TableShape) : List TableShape → List TableShape
  | [] => [shape]
  | other :: rest =>
      if shape.name.rank ≤ other.name.rank then shape :: other :: rest
      else other :: insertShape shape rest

def createTable (m : SchemaManifest) (shape : TableShape) : SchemaManifest :=
  ⟨insertShape shape m.tables⟩

/-- The manifest after running the statements of a schema text. -/
def execute (m : SchemaManifest) (ddl : List TableShape) : SchemaManifest :=
  ddl.foldl createTable m

end SchemaManifest

def mailboxesDdl : TableShape where
  name := .mailboxes
  columns := [⟨.queueId, .blob, some 32⟩, ⟨.sendKey, .blob, some 32⟩,
    ⟨.receiveKey, .blob, some 32⟩, ⟨.manageKey, .blob, some 32⟩, ⟨.createdAt, .integer, none⟩]
  primaryKey := [.queueId]
  cascadesFromMailbox := false

def currentMessagesDdl : TableShape where
  name := .messages
  columns := [⟨.queueId, .blob, none⟩, ⟨.messageId, .blob, some 16⟩, ⟨.ciphertext, .blob, none⟩,
    ⟨.expiresAt, .integer, none⟩, ⟨.senderSignature, .blob, some 64⟩]
  primaryKey := [.queueId, .messageId]
  cascadesFromMailbox := true

/-- The first schema had no sender signatures. -/
def legacyMessagesDdl : TableShape where
  name := .messages
  columns := [⟨.queueId, .blob, none⟩, ⟨.messageId, .blob, some 16⟩, ⟨.ciphertext, .blob, none⟩,
    ⟨.expiresAt, .integer, none⟩]
  primaryKey := [.queueId, .messageId]
  cascadesFromMailbox := true

def tombstonesDdl : TableShape where
  name := .tombstones
  columns := [⟨.queueId, .blob, none⟩, ⟨.messageId, .blob, some 16⟩,
    ⟨.deleteAfter, .integer, none⟩]
  primaryKey := [.queueId, .messageId]
  cascadesFromMailbox := true

def requestNoncesDdl : TableShape where
  name := .requestNonces
  columns := [⟨.queueId, .blob, none⟩, ⟨.role, .text, none⟩, ⟨.nonce, .blob, some 16⟩,
    ⟨.deleteAfter, .integer, none⟩]
  primaryKey := [.queueId, .role, .nonce]
  cascadesFromMailbox := true

def registrationNoncesDdl : TableShape where
  name := .registrationNonces
  columns := [⟨.queueId, .blob, some 32⟩, ⟨.nonce, .blob, some 16⟩,
    ⟨.deleteAfter, .integer, none⟩]
  primaryKey := [.queueId, .nonce]
  cascadesFromMailbox := false

def retiredQueuesDdl : TableShape where
  name := .retiredQueues
  columns := [⟨.queueHash, .blob, some 32⟩, ⟨.retiredAt, .integer, none⟩]
  primaryKey := [.queueHash]
  cascadesFromMailbox := false

def currentSchemaDdl : List TableShape :=
  [mailboxesDdl, currentMessagesDdl, tombstonesDdl, requestNoncesDdl, registrationNoncesDdl,
    retiredQueuesDdl]

def legacySchemaDdl : List TableShape :=
  [mailboxesDdl, legacyMessagesDdl, tombstonesDdl, requestNoncesDdl, registrationNoncesDdl,
    retiredQueuesDdl]

/-- The manifest of a fresh database on which a schema text was run. -/
def referenceManifest (ddl : List TableShape) : SchemaManifest := SchemaManifest.empty.execute ddl

inductive SchemaKind
  | empty
  | legacy
  | current
  | unknown
deriving DecidableEq

def classifySchema (actual empty legacy current : SchemaManifest) : SchemaKind :=
  if actual = empty then .empty
  else if actual = legacy then .legacy
  else if actual = current then .current
  else .unknown

/-- One database file as the program sees it. -/
structure Image where
  userVersion : Int
  manifest : SchemaManifest
  tables : Tables

namespace Image

/-- A file that does not exist yet, or is empty. -/
def blank : Image := ⟨0, .empty, .empty⟩

def kind (image : Image) : SchemaKind :=
  classifySchema image.manifest .empty (referenceManifest legacySchemaDdl)
    (referenceManifest currentSchemaDdl)

/-- `PRAGMA foreign_key_check`: no child row lacks its mailbox. -/
def foreignKeysOk (image : Image) : Bool :=
  image.tables.messages.contents.all (fun row => image.tables.hasMailbox row.queueId) &&
    image.tables.tombstones.contents.all (fun row => image.tables.hasMailbox row.queueId) &&
    image.tables.requestNonces.contents.all (fun row => image.tables.hasMailbox row.queueId)

/-- The length constraints a message row has under the image's own schema. -/
def messageChecks (image : Image) (row : MessageRow) : Bool :=
  if image.kind = .legacy then row.messageId.length = 16 else row.checks

/-- `PRAGMA integrity_check`: length constraints and primary keys hold. -/
def integrityOk (image : Image) : Bool :=
  image.tables.mailboxes.contents.all MailboxRow.checks &&
    image.tables.messages.contents.all image.messageChecks &&
    image.tables.tombstones.contents.all TombstoneRow.checks &&
    image.tables.requestNonces.contents.all RequestNonceRow.checks &&
    image.tables.registrationNonces.contents.all RegistrationNonceRow.checks &&
    image.tables.retiredQueues.contents.all RetiredQueueRow.checks &&
    (image.tables.mailboxes.contents.map MailboxRow.key).Nodup &&
    (image.tables.messages.contents.map MessageRow.key).Nodup &&
    (image.tables.tombstones.contents.map TombstoneRow.key).Nodup &&
    (image.tables.requestNonces.contents.map RequestNonceRow.key).Nodup &&
    (image.tables.registrationNonces.contents.map RegistrationNonceRow.key).Nodup &&
    (image.tables.retiredQueues.contents.map RetiredQueueRow.key).Nodup

end Image

def currentSchemaVersion : Int := 2

def validateDatabaseIntegrity (image : Image) : Except LabError Unit := do
  rejectIf (image.foreignKeysOk = false) .storage
  rejectIf (image.integrityOk = false) .storage

def validateCurrentSchema (image : Image) (expected : SchemaManifest) : Except LabError Unit := do
  rejectIf (image.manifest ≠ expected) .storage
  validateDatabaseIntegrity image

def validateSchemaForOpen (image : Image) : Except LabError Unit := do
  rejectIf (¬ (0 ≤ image.userVersion ∧ image.userVersion ≤ currentSchemaVersion)) .storage
  if (image.userVersion = currentSchemaVersion ∧ image.kind = .current) ∨
      ((image.userVersion = 0 ∨ image.userVersion = 1) ∧
        (image.kind = .empty ∨ image.kind = .legacy)) then
    validateDatabaseIntegrity image
  else .error .storage

def migrateSchema (image : Image) : Except LabError Image := do
  validateSchemaForOpen image
  let expectedCurrent := referenceManifest currentSchemaDdl
  if image.userVersion = currentSchemaVersion ∧ image.kind = .current then .ok image
  else if (image.userVersion = 0 ∨ image.userVersion = 1) ∧ image.kind = .empty then do
    let image := { image with
      manifest := image.manifest.execute currentSchemaDdl
      userVersion := currentSchemaVersion }
    validateCurrentSchema image expectedCurrent
    .ok image
  else if (image.userVersion = 0 ∨ image.userVersion = 1) ∧ image.kind = .legacy then do
    -- Legacy envelopes carry no sender signature and are discarded.
    let image := { image with
      manifest := (image.manifest.dropTable .messages).createTable currentMessagesDdl
      tables := { image.tables with messages := .empty }
      userVersion := currentSchemaVersion }
    validateCurrentSchema image expectedCurrent
    .ok image
  else .error .storage

/-- A relay handle: its database and the events recorded by this process. -/
structure Relay where
  image : Image
  auditEvents : List AuditEvent

/-- Migration and sweep are one transaction; the handle starts without events. -/
def initializeRelay (image : Image) (now : UInt64) : Except LabError Relay := do
  validateSchemaForOpen image
  let image ← migrateSchema image
  let (_, tables) ← purgeExpiredIn image.tables now
  .ok { image := { image with tables }, auditEvents := [] }

/-- Open a relay on a file; `none` is a file that does not exist or is empty. -/
def openAt (file : Option Image) (now : UInt64) : Except LabError Relay :=
  match file with
  | none => initializeRelay .blank now
  | some image => do
      validateSchemaForOpen image
      initializeRelay image now

/-- A newly created relay holds no rows and is at the current schema. -/
def Image.created : Image :=
  ⟨currentSchemaVersion, referenceManifest currentSchemaDdl, .empty⟩

def Relay.empty : Relay := ⟨.created, []⟩

/-- Creating a relay file yields the empty relay at every representable time. -/
theorem openAt_none {now : UInt64} (representable : now.toNat < 2 ^ 63) :
    openAt none now = .ok Relay.empty := by
  have time : toI64 now = .ok now.toNat := toI64_eq_ok.mpr ⟨representable, rfl⟩
  have sweep : purgeExpiredIn Tables.empty now = .ok (0, Tables.empty) := by
    rw [purgeExpiredIn]
    rw [time]
    rfl
  have migrated : migrateSchema Image.blank = .ok Image.created := rfl
  have valid : validateSchemaForOpen Image.blank = .ok () := rfl
  simp only [openAt, initializeRelay, valid, migrated, ok_bind]
  change (purgeExpiredIn Tables.empty now >>= _) = _
  rw [sweep]
  rfl

end SecureMessenger
