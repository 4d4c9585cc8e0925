import SecureMessenger.Relay.Tables

/-!
# The relay's operations

Each operation runs inside one immediate transaction. Its body is a fallible
function from the tables to an answer, an audit event and new tables; an error
drops the transaction, so the tables stay as they were, the expiry sweep
included. The checks stand in the order of the source: some precede the
transaction, the sweep comes first inside it, and the others follow.
-/

namespace SecureMessenger

open Fallible

def maxPacketBytes : Nat := 1_048_576
def maxMessageTtlSeconds : UInt64 := 7 * 24 * 60 * 60
def tombstoneTtlSeconds : UInt64 := 7 * 24 * 60 * 60

inductive EnqueueOutcome
  | stored
  | duplicate
deriving DecidableEq, Repr

inductive AckOutcome
  | deleted
  | alreadyDeleted
deriving DecidableEq, Repr

structure StoredEnvelope where
  queueId : QueueId
  messageId : MessageId
  packet : EncryptedPacket
  expiresAt : UInt64
  senderSignature : Ed25519Signature
deriving DecidableEq

/-- The envelope a recipient should see for a stored request. -/
def SendRequest.envelope (request : SendRequest) : StoredEnvelope where
  queueId := request.queueId
  messageId := request.messageId
  packet := request.packet
  expiresAt := request.expiresAt
  senderSignature := request.signature

/-- Fixed event names; no request data enters the event stream. -/
inductive AuditEvent
  | mailboxRegistrationDuplicate
  | mailboxRegistered
  | messageEnqueueDuplicate
  | messageEnqueued
  | mailboxFetched
  | messageAckDuplicate
  | messageAcknowledgedAndDeleted
  | mailboxDeleted
  | expiredMessagesDeleted
deriving DecidableEq, Repr

def validateRequestTime (validUntil now : UInt64) : Except LabError Unit :=
  rejectIf (validUntil ≤ now ∨ saturatingAdd now (5 * 60) < validUntil) .requestExpired

def validateMessageExpiry (expiresAt now : UInt64) : Except LabError Unit :=
  rejectIf (expiresAt ≤ now ∨ saturatingAdd now maxMessageTtlSeconds < expiresAt) .invalidExpiry

/-- Delete every row whose deadline has passed, in all mailboxes. -/
def purgeExpiredIn (t : Tables) (now : UInt64) : Except LabError (Nat × Tables) := do
  let now ← toI64 now
  let (deleted, messages) := t.messages.deleteWhere (fun row => row.expiresAt ≤ now)
  let (_, tombstones) := t.tombstones.deleteWhere (fun row => row.deleteAfter ≤ now)
  let (_, requestNonces) := t.requestNonces.deleteWhere (fun row => row.deleteAfter ≤ now)
  let (_, registrationNonces) :=
    t.registrationNonces.deleteWhere (fun row => row.deleteAfter ≤ now)
  .ok (deleted, { t with messages, tombstones, requestNonces, registrationNonces })

/-- The key columns of a mailbox row. -/
inductive KeyColumn
  | sendKey
  | receiveKey
  | manageKey
deriving DecidableEq

def KeyColumn.read : KeyColumn → MailboxRow → Bytes
  | .sendKey, row => row.sendKey
  | .receiveKey, row => row.receiveKey
  | .manageKey, row => row.manageKey

/-- Stored key bytes are converted back and may be refused at either step. -/
def decodeKey (P : Primitives) (stored : Bytes) : Except LabError (Ed25519PublicKey P) :=
  match FixedBytes.fromSlice 32 stored with
  | none => .error .storage
  | some bytes =>
      match Ed25519PublicKey.fromSlice P bytes with
      | none => .error .storage
      | some key => .ok key

def mailboxKey (P : Primitives) (t : Tables) (queueId : QueueId) (column : KeyColumn) :
    Except LabError (Ed25519PublicKey P) :=
  match t.mailboxes.find? (fun row => row.queueId = queueId.toList) with
  | none => .error .mailboxNotFound
  | some row => decodeKey P (column.read row)

def recordNonce (t : Tables) (queueId : QueueId) (role : Role) (nonce : Nonce)
    (deleteAfter : UInt64) : Except LabError Tables := do
  let deleteAfter ← toI64 deleteAfter
  let (inserted, t) ← t.insertRequestNonce
    { queueId := queueId.toList, role, nonce := nonce.toList, deleteAfter }
  rejectIf (inserted ≠ 1) .unauthorized
  .ok t

/-- The answer of a transaction body: a value, the event to record, and the
tables to commit. -/
abbrev Committed (α : Type) := α × AuditEvent × Tables

variable (P : Primitives)

def registerIn (t : Tables) (request : MailboxRegistration P) (now : UInt64) :
    Except LabError (Committed Bool) := do
  validateRequestTime request.validUntil now
  rejectIf (request.manageKey.verify request.signingBytes request.signature = false) .unauthorized
  let (_, t) ← purgeExpiredIn t now
  let queueHash := digest P request.queueId.toList
  rejectIf (t.retiredQueues.exists? (fun row => row.queueHash = queueHash.toList) = true)
    .mailboxConflict
  match t.mailboxes.find? (fun row => row.queueId = request.queueId.toList) with
  | some row =>
      rejectIf (¬ (row.sendKey = request.sendKey.asBytes ∧
        row.receiveKey = request.receiveKey.asBytes ∧
        row.manageKey = request.manageKey.asBytes)) .mailboxConflict
      let validUntil ← toI64 request.validUntil
      let (_, t) := t.insertRegistrationNonce
        { queueId := request.queueId.toList, nonce := request.nonce.toList,
          deleteAfter := validUntil }
      .ok (false, .mailboxRegistrationDuplicate, t)
  | none =>
      let validUntil ← toI64 request.validUntil
      let (recorded, t) := t.insertRegistrationNonce
        { queueId := request.queueId.toList, nonce := request.nonce.toList,
          deleteAfter := validUntil }
      rejectIf (recorded ≠ 1) .unauthorized
      let createdAt ← toI64 now
      let t ← t.insertMailbox
        { queueId := request.queueId.toList, sendKey := request.sendKey.asBytes,
          receiveKey := request.receiveKey.asBytes, manageKey := request.manageKey.asBytes,
          createdAt }
      .ok (true, .mailboxRegistered, t)

def enqueueIn (t : Tables) (request : SendRequest) (now : UInt64) :
    Except LabError (Committed EnqueueOutcome) := do
  rejectIf (request.packet = [] ∨ maxPacketBytes < request.packet.length) .invalidPayload
  validateMessageExpiry request.expiresAt now
  let (_, t) ← purgeExpiredIn t now
  let sendKey ← mailboxKey P t request.queueId .sendKey
  rejectIf (sendKey.verify (request.signingBytes P) request.signature = false) .unauthorized
  let time ← toI64 now
  rejectIf (t.tombstones.exists? (fun row => row.queueId = request.queueId.toList ∧
    row.messageId = request.messageId.toList ∧ time < row.deleteAfter) = true) .messageGone
  match t.messages.find? (fun row => row.queueId = request.queueId.toList ∧
      row.messageId = request.messageId.toList) with
  | some row => do
      -- The expiry is converted only when the ciphertexts agree.
      if row.ciphertext = request.packet then do
        let expiresAt ← toI64 request.expiresAt
        rejectIf (row.expiresAt ≠ expiresAt) .messageConflict
        .ok (.duplicate, .messageEnqueueDuplicate, t)
      else .error .messageConflict
  | none => do
      let expiresAt ← toI64 request.expiresAt
      let t ← t.insertMessage
        { queueId := request.queueId.toList, messageId := request.messageId.toList,
          ciphertext := request.packet, expiresAt,
          senderSignature := request.signature.toList }
      .ok (.stored, .messageEnqueued, t)

/-- Decode one stored message; any malformed column is a storage error. -/
def decodeEnvelope (queueId : QueueId) (row : MessageRow) : Except LabError StoredEnvelope :=
  match FixedBytes.fromSlice 16 row.messageId, toU64 row.expiresAt,
      FixedBytes.fromSlice 64 row.senderSignature with
  | some messageId, some expiresAt, some senderSignature =>
      .ok { queueId, messageId, packet := row.ciphertext, expiresAt, senderSignature }
  | _, _, _ => .error .storage

def fetchIn (t : Tables) (request : FetchRequest) (now : UInt64) :
    Except LabError (Committed (List StoredEnvelope)) := do
  validateRequestTime request.validUntil now
  let (_, t) ← purgeExpiredIn t now
  let receiveKey ← mailboxKey P t request.queueId .receiveKey
  rejectIf (receiveKey.verify request.signingBytes request.signature = false) .unauthorized
  let t ← recordNonce t request.queueId .receive request.nonce request.validUntil
  let time ← toI64 now
  let rows := t.messages.contents.filter
    (fun row => row.queueId = request.queueId.toList ∧ time < row.expiresAt)
  let envelopes ← rows.mapM (decodeEnvelope request.queueId)
  .ok (envelopes, .mailboxFetched, t)

def acknowledgeIn (t : Tables) (request : AckRequest) (now : UInt64) :
    Except LabError (Committed AckOutcome) := do
  validateRequestTime request.validUntil now
  let (_, t) ← purgeExpiredIn t now
  let receiveKey ← mailboxKey P t request.queueId .receiveKey
  rejectIf (receiveKey.verify request.signingBytes request.signature = false) .unauthorized
  match t.messages.find? (fun row => row.queueId = request.queueId.toList ∧
      row.messageId = request.messageId.toList) with
  | none => do
      rejectIf (t.tombstones.exists? (fun row => row.queueId = request.queueId.toList ∧
        row.messageId = request.messageId.toList) = false) .messageNotFound
      .ok (.alreadyDeleted, .messageAckDuplicate, t)
  | some row => do
      rejectIf (digest P row.ciphertext ≠ request.packetHash) .unauthorized
      let t := t.deleteMessage request.queueId.toList request.messageId.toList
      let deleteAfter ← toI64 (saturatingAdd now tombstoneTtlSeconds)
      let t ← t.upsertTombstone
        { queueId := request.queueId.toList, messageId := request.messageId.toList, deleteAfter }
      .ok (.deleted, .messageAcknowledgedAndDeleted, t)

def deleteMailboxIn (t : Tables) (request : DeleteMailboxRequest) (now : UInt64) :
    Except LabError (Committed Bool) := do
  validateRequestTime request.validUntil now
  let (_, t) ← purgeExpiredIn t now
  let manageKey ← mailboxKey P t request.queueId .manageKey
  rejectIf (manageKey.verify request.signingBytes request.signature = false) .unauthorized
  let t ← recordNonce t request.queueId .manage request.nonce request.validUntil
  let queueHash := digest P request.queueId.toList
  let retiredAt ← toI64 now
  let (_, t) := t.insertRetiredQueue { queueHash := queueHash.toList, retiredAt }
  let (deleted, t) := t.deleteMailboxRow request.queueId.toList
  .ok (deleted = 1, .mailboxDeleted, t)

end SecureMessenger
