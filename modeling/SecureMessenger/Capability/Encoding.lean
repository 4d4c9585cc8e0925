import SecureMessenger.Basic

/-!
# Signed commands and their byte encoding

Every signed command is a length-prefixed list of parts that begins with the
protocol domain and the name of the action. The requests below assemble their
signing bytes exactly where the source does. `Statement` collects the six kinds
of command that any key of the system ever signs; it is the vocabulary in which
later theorems say what a key holder signed.

The encoding is injective: the bytes determine the action and every part, hence
the kind of statement and all its fields, except that a send statement contains
its packet only through the packet's digest.
-/

namespace SecureMessenger

open Framing

def ascii (text : String) : Bytes := text.toList.map (fun c => UInt8.ofNat c.toNat)

/-- Protocol-domain label of every signed relay command. -/
def protocolDomain : Bytes := ascii "secure-messenger-lab/phase0/v1"

def actionRegister : Bytes := ascii "register"
def actionSend : Bytes := ascii "send"
def actionFetch : Bytes := ascii "fetch"
def actionAck : Bytes := ascii "ack"
def actionDelete : Bytes := ascii "delete-mailbox"
def contactBundleAction : Bytes := ascii "peer-prekey"

/-- The length is written as a 64-bit word; a longer part would be given the
largest word. -/
def appendPart (target part : Bytes) : Bytes :=
  target ++ beBytes 8 (min part.length (2 ^ 64 - 1)) ++ part

def canonical (action : Bytes) (parts : List Bytes) : Bytes :=
  parts.foldl appendPart (appendPart (appendPart [] protocolDomain) action)

theorem appendPart_eq {target part : Bytes} (short : part.length < 2 ^ 64) :
    appendPart target part = target ++ frame 8 part := by
  have exact : min part.length (2 ^ 64 - 1) = part.length := by omega
  rw [appendPart, exact, frame, List.append_assoc]

theorem foldl_appendPart {parts : List Bytes} (short : ∀ part ∈ parts, part.length < 2 ^ 64)
    (target : Bytes) : parts.foldl appendPart target = target ++ frames 8 parts := by
  induction parts generalizing target with
  | nil => simp
  | cons part parts ih =>
      rw [List.foldl_cons, appendPart_eq (short part (by simp)),
        ih (fun p m => short p (by simp [m])), frames_cons, List.append_assoc]

/-- The encoder writes one frame for the domain, one for the action and one for
each part. -/
theorem canonical_eq {action : Bytes} {parts : List Bytes} (shortAction : action.length < 2 ^ 64)
    (short : ∀ part ∈ parts, part.length < 2 ^ 64) :
    canonical action parts = frames 8 (protocolDomain :: action :: parts) := by
  have domain : protocolDomain.length < 2 ^ 64 := by decide
  rw [canonical, appendPart_eq domain, appendPart_eq shortAction, foldl_appendPart short]
  simp

/-- Equal encodings have the same action and the same parts. -/
theorem canonical_inj {action action' : Bytes} {parts parts' : List Bytes}
    (shortAction : action.length < 2 ^ 64) (short : ∀ part ∈ parts, part.length < 2 ^ 64)
    (shortAction' : action'.length < 2 ^ 64) (short' : ∀ part ∈ parts', part.length < 2 ^ 64)
    (h : canonical action parts = canonical action' parts') :
    action = action' ∧ parts = parts' := by
  have domain : protocolDomain.length < 2 ^ 64 := by decide
  rw [canonical_eq shortAction short, canonical_eq shortAction' short'] at h
  have fits : ∀ part ∈ protocolDomain :: action :: parts, part.length < 256 ^ 8 :=
    List.forall_mem_cons.mpr ⟨domain, List.forall_mem_cons.mpr ⟨shortAction, short⟩⟩
  have fits' : ∀ part ∈ protocolDomain :: action' :: parts', part.length < 256 ^ 8 :=
    List.forall_mem_cons.mpr ⟨domain, List.forall_mem_cons.mpr ⟨shortAction', short'⟩⟩
  have same := frames_inj (by decide) fits fits' h
  simpa using same

/-- Wire bytes of one encrypted message. -/
abbrev EncryptedPacket := Bytes

structure MailboxRegistration (P : Primitives) where
  queueId : QueueId
  sendKey : Ed25519PublicKey P
  receiveKey : Ed25519PublicKey P
  manageKey : Ed25519PublicKey P
  nonce : Nonce
  validUntil : UInt64
  signature : Ed25519Signature
deriving DecidableEq

structure SendRequest where
  queueId : QueueId
  messageId : MessageId
  packet : EncryptedPacket
  expiresAt : UInt64
  signature : Ed25519Signature
deriving DecidableEq

structure FetchRequest where
  queueId : QueueId
  nonce : Nonce
  validUntil : UInt64
  signature : Ed25519Signature
deriving DecidableEq

structure AckRequest where
  queueId : QueueId
  messageId : MessageId
  packetHash : FixedBytes 32
  validUntil : UInt64
  signature : Ed25519Signature
deriving DecidableEq

structure DeleteMailboxRequest where
  queueId : QueueId
  nonce : Nonce
  validUntil : UInt64
  signature : Ed25519Signature
deriving DecidableEq

def MailboxRegistration.signingBytes {P : Primitives} (r : MailboxRegistration P) : Bytes :=
  canonical actionRegister
    [r.queueId.toList, r.sendKey.asBytes, r.receiveKey.asBytes, r.manageKey.asBytes,
      r.nonce.toList, toBeBytes r.validUntil]

def sendSigningBytes (P : Primitives) (queueId : QueueId) (messageId : MessageId)
    (packet : EncryptedPacket) (expiresAt : UInt64) : Bytes :=
  canonical actionSend
    [queueId.toList, messageId.toList, (digest P packet).toList, toBeBytes expiresAt]

def SendRequest.signingBytes (P : Primitives) (r : SendRequest) : Bytes :=
  sendSigningBytes P r.queueId r.messageId r.packet r.expiresAt

def FetchRequest.signingBytes (r : FetchRequest) : Bytes :=
  canonical actionFetch [r.queueId.toList, r.nonce.toList, toBeBytes r.validUntil]

def AckRequest.signingBytes (r : AckRequest) : Bytes :=
  canonical actionAck
    [r.queueId.toList, r.messageId.toList, r.packetHash.toList, toBeBytes r.validUntil]

def DeleteMailboxRequest.signingBytes (r : DeleteMailboxRequest) : Bytes :=
  canonical actionDelete [r.queueId.toList, r.nonce.toList, toBeBytes r.validUntil]

/-- What a key holder can sign: one of the five relay commands, or the binding
of a contact bundle. Public keys appear as their 32-byte encodings. -/
inductive Statement
  | register (queueId : QueueId) (sendKey receiveKey manageKey : FixedBytes 32)
      (nonce : Nonce) (validUntil : UInt64)
  | send (queueId : QueueId) (messageId : MessageId) (packet : EncryptedPacket)
      (expiresAt : UInt64)
  | fetch (queueId : QueueId) (nonce : Nonce) (validUntil : UInt64)
  | ack (queueId : QueueId) (messageId : MessageId) (packetHash : FixedBytes 32)
      (validUntil : UInt64)
  | deleteMailbox (queueId : QueueId) (nonce : Nonce) (validUntil : UInt64)
  | peerPrekey (signingIdentity curveIdentity oneTimeKey : FixedBytes 32)
      (validUntil : UInt64)
deriving DecidableEq

/-- The six kinds of statement. -/
inductive Kind
  | register
  | send
  | fetch
  | ack
  | deleteMailbox
  | peerPrekey
deriving DecidableEq

def Kind.action : Kind → Bytes
  | register => actionRegister
  | send => actionSend
  | fetch => actionFetch
  | ack => actionAck
  | deleteMailbox => actionDelete
  | peerPrekey => contactBundleAction

theorem Kind.action_inj {kind kind' : Kind} (h : kind.action = kind'.action) : kind = kind' := by
  cases kind <;> cases kind' <;> first | rfl | exact absurd h (by decide)

namespace Statement

def kind : Statement → Kind
  | register .. => .register
  | send .. => .send
  | fetch .. => .fetch
  | ack .. => .ack
  | deleteMailbox .. => .deleteMailbox
  | peerPrekey .. => .peerPrekey

def parts (P : Primitives) : Statement → List Bytes
  | register queueId sendKey receiveKey manageKey nonce validUntil =>
      [queueId.toList, sendKey.toList, receiveKey.toList, manageKey.toList, nonce.toList,
        toBeBytes validUntil]
  | send queueId messageId packet expiresAt =>
      [queueId.toList, messageId.toList, (digest P packet).toList, toBeBytes expiresAt]
  | fetch queueId nonce validUntil => [queueId.toList, nonce.toList, toBeBytes validUntil]
  | ack queueId messageId packetHash validUntil =>
      [queueId.toList, messageId.toList, packetHash.toList, toBeBytes validUntil]
  | deleteMailbox queueId nonce validUntil => [queueId.toList, nonce.toList, toBeBytes validUntil]
  | peerPrekey signingIdentity curveIdentity oneTimeKey validUntil =>
      [signingIdentity.toList, curveIdentity.toList, oneTimeKey.toList, toBeBytes validUntil]

def signingBytes (P : Primitives) (st : Statement) : Bytes := canonical st.kind.action (st.parts P)

/-- The packet of a send statement. -/
def packet? : Statement → Option EncryptedPacket
  | send _ _ packet _ => some packet
  | _ => none

/-- Equality of the signed fields: a packet counts through its digest. -/
def SameFields (P : Primitives) : Statement → Statement → Prop
  | send queueId messageId packet expiresAt, send queueId' messageId' packet' expiresAt' =>
      queueId = queueId' ∧ messageId = messageId' ∧ digest P packet = digest P packet' ∧
        expiresAt = expiresAt'
  | st, st' => st = st'

theorem short_action (kind : Kind) : kind.action.length < 2 ^ 64 := by
  cases kind <;> decide

/-- Every signed part is a fixed-length field. -/
theorem short_parts (P : Primitives) (st : Statement) :
    ∀ part ∈ st.parts P, part.length < 2 ^ 64 := by
  intro part member
  have bounded : part.length ≤ 32 := by
    cases st <;> simp only [parts, List.mem_cons, List.not_mem_nil, or_false] at member <;>
      obtain rfl | rfl | rfl | rfl | rfl | rfl := member <;>
      simp [FixedBytes.length_toList]
  omega

/-- The signing bytes determine the kind of statement and every signed field. -/
theorem sameFields_of_signingBytes {P : Primitives} {st st' : Statement}
    (h : st.signingBytes P = st'.signingBytes P) : st.SameFields P st' := by
  obtain ⟨sameAction, sameParts⟩ := canonical_inj (short_action st.kind) (st.short_parts P)
    (short_action st'.kind) (st'.short_parts P) h
  have sameKind := Kind.action_inj sameAction
  -- Statements of different kinds are excluded by the action alone; several of
  -- the remaining kinds have parts of the same lengths.
  cases st <;> cases st' <;> cases sameKind
  all_goals
    simp only [parts, List.cons.injEq, FixedBytes.toList_inj, and_true] at sameParts
    grind [SameFields, toBeBytes_inj]

/-- Without a collision between their packets, statements with equal signing
bytes are equal. -/
theorem eq_of_signingBytes {P : Primitives} {packets : Bytes → Prop}
    (collisionFree : CollisionFree P packets) {st st' : Statement}
    (mem : ∀ p ∈ st.packet?, packets p) (mem' : ∀ p ∈ st'.packet?, packets p)
    (h : st.signingBytes P = st'.signingBytes P) : st = st' := by
  have same := sameFields_of_signingBytes h
  cases st with
  | send queueId messageId packet expiresAt =>
      cases st' with
      | send queueId' messageId' packet' expiresAt' =>
          obtain ⟨rfl, rfl, samePacket, rfl⟩ := same
          rw [collisionFree packet packet' (mem packet rfl) (mem' packet' rfl) samePacket]
      | _ => exact same
  | _ => cases st' <;> exact same

end Statement

section Requests

variable {P : Primitives}

/-- The statement each request asks its signer to have made. -/
def MailboxRegistration.statement (r : MailboxRegistration P) : Statement :=
  .register r.queueId r.sendKey.bytes r.receiveKey.bytes r.manageKey.bytes r.nonce r.validUntil

def SendRequest.statement (r : SendRequest) : Statement :=
  .send r.queueId r.messageId r.packet r.expiresAt

def FetchRequest.statement (r : FetchRequest) : Statement :=
  .fetch r.queueId r.nonce r.validUntil

def AckRequest.statement (r : AckRequest) : Statement :=
  .ack r.queueId r.messageId r.packetHash r.validUntil

def DeleteMailboxRequest.statement (r : DeleteMailboxRequest) : Statement :=
  .deleteMailbox r.queueId r.nonce r.validUntil

theorem MailboxRegistration.signingBytes_eq (r : MailboxRegistration P) :
    r.signingBytes = r.statement.signingBytes P := rfl

theorem SendRequest.signingBytes_eq (r : SendRequest) :
    r.signingBytes P = r.statement.signingBytes P := rfl

theorem FetchRequest.signingBytes_eq (r : FetchRequest) :
    r.signingBytes = r.statement.signingBytes P := rfl

theorem AckRequest.signingBytes_eq (r : AckRequest) :
    r.signingBytes = r.statement.signingBytes P := rfl

theorem DeleteMailboxRequest.signingBytes_eq (r : DeleteMailboxRequest) :
    r.signingBytes = r.statement.signingBytes P := rfl

end Requests

end SecureMessenger
