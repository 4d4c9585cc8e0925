import SecureMessenger.Library.Table
import SecureMessenger.Capability.Encoding

/-!
# The relay's tables

Six tables with the columns of the current schema. Identifier, key, nonce and
signature columns hold raw bytes, as in the database; the length constraints of
the schema are checked by the insertions, together with primary keys and the
foreign keys of the three child tables. A violated constraint is an error of the
statement, which the relay reports as a storage failure.

Deleting a mailbox row removes its messages, tombstones and request nonces by
cascade. Registration nonces and retired-queue hashes are outside the cascade.
-/

namespace SecureMessenger

open Fallible

structure MailboxRow where
  queueId : Bytes
  sendKey : Bytes
  receiveKey : Bytes
  manageKey : Bytes
  createdAt : Int
deriving DecidableEq

structure MessageRow where
  queueId : Bytes
  messageId : Bytes
  ciphertext : Bytes
  expiresAt : Int
  senderSignature : Bytes
deriving DecidableEq

structure TombstoneRow where
  queueId : Bytes
  messageId : Bytes
  deleteAfter : Int
deriving DecidableEq

/-- The role column of a request nonce. -/
inductive Role
  | receive
  | manage
deriving DecidableEq

structure RequestNonceRow where
  queueId : Bytes
  role : Role
  nonce : Bytes
  deleteAfter : Int
deriving DecidableEq

structure RegistrationNonceRow where
  queueId : Bytes
  nonce : Bytes
  deleteAfter : Int
deriving DecidableEq

structure RetiredQueueRow where
  queueHash : Bytes
  retiredAt : Int
deriving DecidableEq

/-- The contents of a relay database. -/
structure Tables where
  mailboxes : Table MailboxRow
  messages : Table MessageRow
  tombstones : Table TombstoneRow
  requestNonces : Table RequestNonceRow
  registrationNonces : Table RegistrationNonceRow
  retiredQueues : Table RetiredQueueRow

/-- The `CHECK` constraints of each table. -/
def MailboxRow.checks (row : MailboxRow) : Bool :=
  row.queueId.length = 32 ∧ row.sendKey.length = 32 ∧ row.receiveKey.length = 32 ∧
    row.manageKey.length = 32

def MessageRow.checks (row : MessageRow) : Bool :=
  row.messageId.length = 16 ∧ row.senderSignature.length = 64

def TombstoneRow.checks (row : TombstoneRow) : Bool := row.messageId.length = 16

def RequestNonceRow.checks (row : RequestNonceRow) : Bool := row.nonce.length = 16

def RegistrationNonceRow.checks (row : RegistrationNonceRow) : Bool :=
  row.queueId.length = 32 ∧ row.nonce.length = 16

def RetiredQueueRow.checks (row : RetiredQueueRow) : Bool := row.queueHash.length = 32

/-- The primary key of each table. -/
def MailboxRow.key (row : MailboxRow) : Bytes := row.queueId
def MessageRow.key (row : MessageRow) : Bytes × Bytes := (row.queueId, row.messageId)
def TombstoneRow.key (row : TombstoneRow) : Bytes × Bytes := (row.queueId, row.messageId)
def RequestNonceRow.key (row : RequestNonceRow) : Bytes × Role × Bytes :=
  (row.queueId, row.role, row.nonce)
def RegistrationNonceRow.key (row : RegistrationNonceRow) : Bytes × Bytes :=
  (row.queueId, row.nonce)
def RetiredQueueRow.key (row : RetiredQueueRow) : Bytes := row.queueHash

namespace Tables

def empty : Tables :=
  ⟨Table.empty, Table.empty, Table.empty, Table.empty, Table.empty, Table.empty⟩

/-- The foreign-key check of a child row: its mailbox exists. -/
def hasMailbox (t : Tables) (queueId : Bytes) : Bool :=
  t.mailboxes.exists? (fun row => row.queueId = queueId)

def insertMailbox (t : Tables) (row : MailboxRow) : Except LabError Tables := do
  rejectIf (row.checks = false) .storage
  match t.mailboxes.insertUnique MailboxRow.key row with
  | some mailboxes => .ok { t with mailboxes }
  | none => .error .storage

def insertMessage (t : Tables) (row : MessageRow) : Except LabError Tables := do
  rejectIf (row.checks = false) .storage
  rejectIf (t.hasMailbox row.queueId = false) .storage
  match t.messages.insertUnique MessageRow.key row with
  | some messages => .ok { t with messages }
  | none => .error .storage

/-- `INSERT ... ON CONFLICT DO UPDATE SET delete_after = excluded.delete_after`. -/
def upsertTombstone (t : Tables) (row : TombstoneRow) : Except LabError Tables := do
  rejectIf (row.checks = false) .storage
  rejectIf (t.hasMailbox row.queueId = false) .storage
  .ok { t with
    tombstones := t.tombstones.upsert TombstoneRow.key row
      (fun old => { old with deleteAfter := row.deleteAfter }) }

/-- `INSERT OR IGNORE`, which reports how many rows it inserted. The clause
covers the primary key and the checks; a missing parent is still an error. -/
def insertRequestNonce (t : Tables) (row : RequestNonceRow) : Except LabError (Nat × Tables) := do
  let (inserted, requestNonces) :=
    if row.checks then t.requestNonces.insertOrIgnore RequestNonceRow.key row
    else (0, t.requestNonces)
  rejectIf (inserted = 1 ∧ t.hasMailbox row.queueId = false) .storage
  .ok (inserted, { t with requestNonces })

def insertRegistrationNonce (t : Tables) (row : RegistrationNonceRow) : Nat × Tables :=
  let (inserted, registrationNonces) :=
    if row.checks then t.registrationNonces.insertOrIgnore RegistrationNonceRow.key row
    else (0, t.registrationNonces)
  (inserted, { t with registrationNonces })

def insertRetiredQueue (t : Tables) (row : RetiredQueueRow) : Nat × Tables :=
  let (inserted, retiredQueues) :=
    if row.checks then t.retiredQueues.insertOrIgnore RetiredQueueRow.key row
    else (0, t.retiredQueues)
  (inserted, { t with retiredQueues })

def deleteMessage (t : Tables) (queueId messageId : Bytes) : Tables :=
  { t with
    messages := (t.messages.deleteWhere
      (fun row => row.queueId = queueId ∧ row.messageId = messageId)).2 }

/-- Delete a mailbox row; its child rows go by cascade. -/
def deleteMailboxRow (t : Tables) (queueId : Bytes) : Nat × Tables :=
  let (deleted, mailboxes) := t.mailboxes.deleteWhere (fun row => row.queueId = queueId)
  (deleted,
    { t with
      mailboxes
      messages := (t.messages.deleteWhere (fun row => row.queueId = queueId)).2
      tombstones := (t.tombstones.deleteWhere (fun row => row.queueId = queueId)).2
      requestNonces := (t.requestNonces.deleteWhere (fun row => row.queueId = queueId)).2 })

end Tables

end SecureMessenger
