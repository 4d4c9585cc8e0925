import SecureMessenger.Relay.Operations

/-!
# Capabilities and the requests they issue

A mailbox owner holds three key pairs for one queue and hands out the capability
to send, to receive or to manage. Each capability fills in its own queue and signs
the canonical bytes of the request it returns. Randomness is an argument: the
nonce of a request and the keys of an owner are whatever the caller drew.

`verifyEnvelope` is the recipient's check of an envelope that came from an
untrusted relay; its result is the only kind of envelope a client opens.
`authorizeAck` takes the queue from the capability and the message id and packet
from the opened envelope, as in the source.
-/

namespace SecureMessenger

open Fallible

variable {P : Primitives}

structure SendCapability (P : Primitives) where
  queueId : QueueId
  signingKey : Ed25519Keypair P

structure ReceiveCapability (P : Primitives) where
  queueId : QueueId
  signingKey : Ed25519Keypair P
  sendVerificationKey : Ed25519PublicKey P

structure ManageCapability (P : Primitives) where
  queueId : QueueId
  signingKey : Ed25519Keypair P

/-- An envelope whose sender signature was checked. -/
structure VerifiedEnvelope where
  queueId : QueueId
  messageId : MessageId
  packet : EncryptedPacket
  expiresAt : UInt64
deriving DecidableEq

/-- Application data inside the encrypted payload. -/
structure PlainMessage where
  version : UInt8
  conversationId : ConversationId
  messageId : MessageId
  sentAt : UInt64
  body : String
deriving DecidableEq

/-- A plaintext with the envelope it was decrypted from. -/
structure OpenedMessage where
  message : PlainMessage
  envelope : VerifiedEnvelope
deriving DecidableEq

def SendCapability.authorize (c : SendCapability P) (messageId : MessageId)
    (packet : EncryptedPacket) (expiresAt : UInt64) : SendRequest where
  queueId := c.queueId
  messageId := messageId
  packet := packet
  expiresAt := expiresAt
  signature := c.signingKey.sign (canonical actionSend
    [c.queueId.toList, messageId.toList, (digest P packet).toList, toBeBytes expiresAt])

namespace ReceiveCapability

def authorizeFetch (c : ReceiveCapability P) (nonce : Nonce) (validUntil : UInt64) :
    FetchRequest where
  queueId := c.queueId
  nonce := nonce
  validUntil := validUntil
  signature := c.signingKey.sign (canonical actionFetch
    [c.queueId.toList, nonce.toList, toBeBytes validUntil])

def verifyEnvelope (c : ReceiveCapability P) (envelope : StoredEnvelope) (now : UInt64) :
    Except LabError VerifiedEnvelope := do
  rejectIf (envelope.queueId ≠ c.queueId ∨ envelope.expiresAt ≤ now) .unauthorized
  rejectIf (c.sendVerificationKey.verify
    (sendSigningBytes P envelope.queueId envelope.messageId envelope.packet envelope.expiresAt)
    envelope.senderSignature = false) .unauthorized
  .ok { queueId := envelope.queueId, messageId := envelope.messageId,
        packet := envelope.packet, expiresAt := envelope.expiresAt }

def authorizeAck (c : ReceiveCapability P) (opened : OpenedMessage) (validUntil : UInt64) :
    AckRequest where
  queueId := c.queueId
  messageId := opened.envelope.messageId
  packetHash := digest P opened.envelope.packet
  validUntil := validUntil
  signature := c.signingKey.sign (canonical actionAck
    [c.queueId.toList, opened.envelope.messageId.toList,
      (digest P opened.envelope.packet).toList, toBeBytes validUntil])

end ReceiveCapability

def ManageCapability.authorizeDelete (c : ManageCapability P) (nonce : Nonce)
    (validUntil : UInt64) : DeleteMailboxRequest where
  queueId := c.queueId
  nonce := nonce
  validUntil := validUntil
  signature := c.signingKey.sign (canonical actionDelete
    [c.queueId.toList, nonce.toList, toBeBytes validUntil])

/-- The private keys of one mailbox. -/
structure MailboxOwner (P : Primitives) where
  queueId : QueueId
  send : Ed25519Keypair P
  receive : Ed25519Keypair P
  manage : Ed25519Keypair P

namespace MailboxOwner

def registration (owner : MailboxOwner P) (nonce : Nonce) (validUntil : UInt64) :
    MailboxRegistration P where
  queueId := owner.queueId
  sendKey := owner.send.publicKey
  receiveKey := owner.receive.publicKey
  manageKey := owner.manage.publicKey
  nonce := nonce
  validUntil := validUntil
  signature := owner.manage.sign (canonical actionRegister
    [owner.queueId.toList, owner.send.publicKey.asBytes, owner.receive.publicKey.asBytes,
      owner.manage.publicKey.asBytes, nonce.toList, toBeBytes validUntil])

def senderCapability (owner : MailboxOwner P) : SendCapability P where
  queueId := owner.queueId
  signingKey := owner.send

def receiverCapability (owner : MailboxOwner P) : ReceiveCapability P where
  queueId := owner.queueId
  signingKey := owner.receive
  sendVerificationKey := owner.send.publicKey

def managerCapability (owner : MailboxOwner P) : ManageCapability P where
  queueId := owner.queueId
  signingKey := owner.manage

/-- An owner with symbolic keys, told apart by a tag. -/
def symbolic (tag : UInt8) : MailboxOwner .symbolic where
  queueId := .fill 32 tag
  send := .symbolic (.fill 32 (tag + 1))
  receive := .symbolic (.fill 32 (tag + 2))
  manage := .symbolic (.fill 32 (tag + 3))

end MailboxOwner

/-- What a verified envelope guarantees. -/
theorem ReceiveCapability.verifyEnvelope_eq_ok {c : ReceiveCapability P}
    {envelope : StoredEnvelope} {now : UInt64} {verified : VerifiedEnvelope} :
    c.verifyEnvelope envelope now = .ok verified ↔
      envelope.queueId = c.queueId ∧ now < envelope.expiresAt ∧
      c.sendVerificationKey.verify (sendSigningBytes P envelope.queueId envelope.messageId
        envelope.packet envelope.expiresAt) envelope.senderSignature = true ∧
      verified = { queueId := envelope.queueId, messageId := envelope.messageId,
                   packet := envelope.packet, expiresAt := envelope.expiresAt } := by
  simp only [verifyEnvelope, bind_eq_ok, rejectIf_eq_ok, not_or, ne_eq, Decidable.not_not,
    UInt64.not_le, Bool.not_eq_false, Except.ok.injEq, eq_comm (a := verified)]
  constructor
  · rintro ⟨_, ⟨own, future⟩, _, signed, same⟩
    exact ⟨own, future, signed, same⟩
  · rintro ⟨own, future, signed, same⟩
    exact ⟨(), ⟨own, future⟩, (), signed, same⟩

end SecureMessenger
