import SecureMessenger.Relay.Step

/-!
# One mailbox as a machine of its own

A mailbox is everything the relay keeps about one queue: its row, its messages,
tombstones and nonces, and whether its hash is among the retired ones. The
operations below say what each relay operation does to the mailbox it is
addressed to, without any other mailbox in sight and without row numbers.

`Tables.mailbox` reads one mailbox off the relay's tables. Each operation of the
relay, on whatever tables, runs in lockstep with the operation of the mailbox it
is addressed to: the same error, or the same answer and matching rows. To every
other mailbox the same step is at most an expiry sweep, except that a deletion
may retire the hash of a different queue with the same digest.
-/

namespace SecureMessenger

open Fallible

/-- The rows of one queue. -/
@[ext] structure Mailbox where
  rows : List MailboxRow
  messages : List MessageRow
  tombstones : List TombstoneRow
  requestNonces : List RequestNonceRow
  registrationNonces : List RegistrationNonceRow
  retired : Bool

namespace Mailbox

/-- Nothing is stored about a queue that was never registered. -/
def absent : Mailbox := ⟨[], [], [], [], [], false⟩

/-- Drop the rows whose deadline has passed. -/
def sweep (m : Mailbox) (now : Int) : Mailbox :=
  { m with
    messages := m.messages.filter (fun row => now < row.expiresAt)
    tombstones := m.tombstones.filter (fun row => now < row.deleteAfter)
    requestNonces := m.requestNonces.filter (fun row => now < row.deleteAfter)
    registrationNonces := m.registrationNonces.filter (fun row => now < row.deleteAfter) }

def purge (m : Mailbox) (now : UInt64) : Except LabError Mailbox := do
  let now ← toI64 now
  .ok (m.sweep now)

variable (P : Primitives)

def key (m : Mailbox) (column : KeyColumn) : Except LabError (Ed25519PublicKey P) :=
  match m.rows.head? with
  | none => .error .mailboxNotFound
  | some row => decodeKey P (column.read row)

def hasRegistrationNonce (m : Mailbox) (nonce : Nonce) : Bool :=
  m.registrationNonces.any (fun row => row.nonce = nonce.toList)

/-- Remember a registration nonce unless it is remembered already. -/
def noteRegistration (m : Mailbox) (queueId : QueueId) (nonce : Nonce) (deleteAfter : Int) :
    Mailbox :=
  if m.hasRegistrationNonce nonce then m else
  { m with
    registrationNonces := m.registrationNonces ++
      [{ queueId := queueId.toList, nonce := nonce.toList, deleteAfter }] }

/-- Remember a request nonce, or refuse the request that reuses it. -/
def recordNonce (m : Mailbox) (queueId : QueueId) (role : Role) (nonce : Nonce)
    (deleteAfter : UInt64) : Except LabError Mailbox := do
  let deleteAfter ← toI64 deleteAfter
  rejectIf (m.requestNonces.any (fun row => row.role = role ∧ row.nonce = nonce.toList) = true)
    .unauthorized
  .ok { m with
    requestNonces := m.requestNonces ++
      [{ queueId := queueId.toList, role, nonce := nonce.toList, deleteAfter }] }

/-- The row a registration creates. -/
def rowOf {P : Primitives} (request : MailboxRegistration P) (createdAt : Int) : MailboxRow where
  queueId := request.queueId.toList
  sendKey := request.sendKey.asBytes
  receiveKey := request.receiveKey.asBytes
  manageKey := request.manageKey.asBytes
  createdAt := createdAt

/-- The stored keys are those of the registration. -/
def SameKeys {P : Primitives} (row : MailboxRow) (request : MailboxRegistration P) : Prop :=
  row.sendKey = request.sendKey.asBytes ∧ row.receiveKey = request.receiveKey.asBytes ∧
    row.manageKey = request.manageKey.asBytes

instance {P : Primitives} (row : MailboxRow) (request : MailboxRegistration P) :
    Decidable (SameKeys row request) :=
  inferInstanceAs (Decidable (_ ∧ _ ∧ _))

def register (m : Mailbox) (request : MailboxRegistration P) (now : UInt64) :
    Except LabError (Bool × Mailbox) := do
  validateRequestTime request.validUntil now
  rejectIf (request.manageKey.verify request.signingBytes request.signature = false) .unauthorized
  let m ← m.purge now
  rejectIf (m.retired = true) .mailboxConflict
  match m.rows.head? with
  | some row => do
      rejectIf (¬ SameKeys row request) .mailboxConflict
      let validUntil ← toI64 request.validUntil
      .ok (false, m.noteRegistration request.queueId request.nonce validUntil)
  | none => do
      let validUntil ← toI64 request.validUntil
      rejectIf (m.hasRegistrationNonce request.nonce = true) .unauthorized
      let createdAt ← toI64 now
      .ok (true,
        { m.noteRegistration request.queueId request.nonce validUntil with
          rows := [rowOf request createdAt] })

/-- The row a send request stores. -/
def messageOf (request : SendRequest) (expiresAt : Int) : MessageRow where
  queueId := request.queueId.toList
  messageId := request.messageId.toList
  ciphertext := request.packet
  expiresAt := expiresAt
  senderSignature := request.signature.toList

def findMessage (m : Mailbox) (messageId : MessageId) : Option MessageRow :=
  m.messages.find? (fun row => row.messageId = messageId.toList)

def enqueue (m : Mailbox) (request : SendRequest) (now : UInt64) :
    Except LabError (EnqueueOutcome × Mailbox) := do
  rejectIf (request.packet = [] ∨ maxPacketBytes < request.packet.length) .invalidPayload
  validateMessageExpiry request.expiresAt now
  let m ← m.purge now
  let sendKey ← m.key P .sendKey
  rejectIf (sendKey.verify (request.signingBytes P) request.signature = false) .unauthorized
  let time ← toI64 now
  rejectIf (m.tombstones.any (fun row => row.messageId = request.messageId.toList ∧
    time < row.deleteAfter) = true) .messageGone
  match m.findMessage request.messageId with
  | some row =>
      if row.ciphertext = request.packet then do
        let expiresAt ← toI64 request.expiresAt
        rejectIf (row.expiresAt ≠ expiresAt) .messageConflict
        .ok (.duplicate, m)
      else .error .messageConflict
  | none => do
      let expiresAt ← toI64 request.expiresAt
      .ok (.stored, { m with messages := m.messages ++ [messageOf request expiresAt] })

def fetch (m : Mailbox) (request : FetchRequest) (now : UInt64) :
    Except LabError (List StoredEnvelope × Mailbox) := do
  validateRequestTime request.validUntil now
  let m ← m.purge now
  let receiveKey ← m.key P .receiveKey
  rejectIf (receiveKey.verify request.signingBytes request.signature = false) .unauthorized
  let m ← m.recordNonce request.queueId .receive request.nonce request.validUntil
  let time ← toI64 now
  let envelopes ← (m.messages.filter (fun row => time < row.expiresAt)).mapM
    (decodeEnvelope request.queueId)
  .ok (envelopes, m)

/-- Forget a message and leave a tombstone in its place. -/
def bury (m : Mailbox) (queueId : QueueId) (messageId : MessageId) (deleteAfter : Int) :
    Mailbox :=
  { m with
    messages := m.messages.filter (fun row => row.messageId ≠ messageId.toList)
    tombstones :=
      if m.tombstones.any (fun row => row.messageId = messageId.toList) then
        m.tombstones.map (fun row =>
          if row.messageId = messageId.toList then { row with deleteAfter } else row)
      else
        m.tombstones ++
          [{ queueId := queueId.toList, messageId := messageId.toList, deleteAfter }] }

def acknowledge (m : Mailbox) (request : AckRequest) (now : UInt64) :
    Except LabError (AckOutcome × Mailbox) := do
  validateRequestTime request.validUntil now
  let m ← m.purge now
  let receiveKey ← m.key P .receiveKey
  rejectIf (receiveKey.verify request.signingBytes request.signature = false) .unauthorized
  match m.findMessage request.messageId with
  | none => do
      rejectIf (m.tombstones.any (fun row => row.messageId = request.messageId.toList) = false)
        .messageNotFound
      .ok (.alreadyDeleted, m)
  | some row => do
      rejectIf (digest P row.ciphertext ≠ request.packetHash) .unauthorized
      let deleteAfter ← toI64 (saturatingAdd now tombstoneTtlSeconds)
      .ok (.deleted, m.bury request.queueId request.messageId deleteAfter)

/-- What remains of a deleted mailbox. -/
def retire (m : Mailbox) : Mailbox :=
  { absent with registrationNonces := m.registrationNonces, retired := true }

def deleteMailbox (m : Mailbox) (request : DeleteMailboxRequest) (now : UInt64) :
    Except LabError (Bool × Mailbox) := do
  validateRequestTime request.validUntil now
  let m ← m.purge now
  let manageKey ← m.key P .manageKey
  rejectIf (manageKey.verify request.signingBytes request.signature = false) .unauthorized
  let m ← m.recordNonce request.queueId .manage request.nonce request.validUntil
  let _ ← toI64 now
  .ok (m.rows.length = 1, m.retire)

end Mailbox

/-- The mailbox of one queue, read off the tables. -/
def Tables.mailbox (P : Primitives) (t : Tables) (queueId : QueueId) : Mailbox where
  rows := t.mailboxes.contents.filter (fun row => row.queueId = queueId.toList)
  messages := t.messages.contents.filter (fun row => row.queueId = queueId.toList)
  tombstones := t.tombstones.contents.filter (fun row => row.queueId = queueId.toList)
  requestNonces := t.requestNonces.contents.filter (fun row => row.queueId = queueId.toList)
  registrationNonces :=
    t.registrationNonces.contents.filter (fun row => row.queueId = queueId.toList)
  retired := t.retiredQueues.exists?
    (fun row => row.queueHash = (digest P queueId.toList).toList)

end SecureMessenger
