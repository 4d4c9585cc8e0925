import Mathlib.Data.Finset.Insert
import SecureMessenger.Capability.Authority

/-!
# The Olm client

One client talks to one peer in one conversation. The Olm account and session, and
the JSON codecs, come from third-party packages; they are collected in `Olm` as
parameters without laws. Operations that draw random bytes take them as `entropy`.

Both ways of opening a packet work on a copy of the account or of the session, and
the source assigns to the client only after the last check has passed; so does the
start of an outbound session. The staged computation returns the client to be
installed, and `settle` installs it. Sealing and exporting a bundle change the
client in place and may fail afterwards.
-/

namespace SecureMessenger

open Fallible

abbrev Curve25519PublicKey := FixedBytes 32

inductive OlmMessage (PreKey Normal : Type)
  | preKey (message : PreKey)
  | normal (message : Normal)

/-- The Olm library and the codecs of packets and payloads. -/
structure Olm (P : Primitives) where
  Account : Type
  AccountPickle : Type
  Session : Type
  SessionPickle : Type
  PreKeyMessage : Type
  NormalMessage : Type
  ed25519Key : Account → Ed25519PublicKey P
  curve25519Key : Account → Curve25519PublicKey
  sign : Account → Bytes → Ed25519Signature
  generateOneTimeKeys : Account → Nat → (entropy : Bytes) → Account
  oneTimeKeys : Account → List Curve25519PublicKey
  markKeysAsPublished : Account → Account
  pickle : Account → AccountPickle
  fromPickle : AccountPickle → Account
  createOutboundSession : Account → (identity oneTime : Curve25519PublicKey) →
    (entropy : Bytes) → Option Session
  createInboundSession : Account → (identity : Curve25519PublicKey) → PreKeyMessage →
    Option (Session × Bytes) × Account
  pickleSession : Session → SessionPickle
  sessionFromPickle : SessionPickle → Session
  encrypt : Session → Bytes → (entropy : Bytes) →
    Option (OlmMessage PreKeyMessage NormalMessage) × Session
  decrypt : Session → OlmMessage PreKeyMessage NormalMessage → Option Bytes × Session
  encodeMessage : OlmMessage PreKeyMessage NormalMessage → Option Bytes
  decodeMessage : Bytes → Option (OlmMessage PreKeyMessage NormalMessage)
  encodePlain : PlainMessage → Option Bytes
  decodePlain : Bytes → Option PlainMessage

def payloadVersion : UInt8 := 1
def contactBundleMaxValiditySeconds : UInt64 := 5 * 60

variable {P : Primitives}

/-- A contact bundle, transferred out of band. -/
structure PeerPreKey (P : Primitives) where
  signingIdentity : Ed25519PublicKey P
  curveIdentity : Curve25519PublicKey
  oneTimeKey : Curve25519PublicKey
  validUntil : UInt64
  signature : Ed25519Signature

/-- A bundle whose keys were checked against a pinned identity. -/
structure VerifiedPeerPreKey (P : Primitives) where
  signingIdentity : Ed25519PublicKey P
  curveIdentity : Curve25519PublicKey
  oneTimeKey : Curve25519PublicKey
  validUntil : UInt64

def peerPrekeySigningBytes (signingIdentity : Ed25519PublicKey P)
    (curveIdentity oneTimeKey : Curve25519PublicKey) (validUntil : UInt64) : Bytes :=
  canonical contactBundleAction
    [signingIdentity.asBytes, curveIdentity.toList, oneTimeKey.toList, toBeBytes validUntil]

namespace PeerPreKey

def signingBytes (bundle : PeerPreKey P) : Bytes :=
  peerPrekeySigningBytes bundle.signingIdentity bundle.curveIdentity bundle.oneTimeKey
    bundle.validUntil

/-- The statement the signature of a bundle makes. -/
def statement (bundle : PeerPreKey P) : Statement :=
  .peerPrekey bundle.signingIdentity.bytes bundle.curveIdentity bundle.oneTimeKey
    bundle.validUntil

def verify (bundle : PeerPreKey P) (pinnedSigningIdentity : Ed25519PublicKey P) (now : UInt64) :
    Except LabError (VerifiedPeerPreKey P) := do
  rejectIf (bundle.signingIdentity ≠ pinnedSigningIdentity ∨ bundle.validUntil ≤ now ∨
    bundle.validUntil > saturatingAdd now contactBundleMaxValiditySeconds)
    .peerVerificationFailed
  rejectIf (pinnedSigningIdentity.verify bundle.signingBytes bundle.signature = false)
    .peerVerificationFailed
  .ok { signingIdentity := bundle.signingIdentity, curveIdentity := bundle.curveIdentity,
        oneTimeKey := bundle.oneTimeKey, validUntil := bundle.validUntil }

end PeerPreKey

/-- A single-device, single-peer client. -/
structure OlmClient (L : Olm P) where
  account : L.Account
  session : Option L.Session
  conversationId : ConversationId
  displayedMessages : Finset MessageId

namespace OlmClient

variable {L : Olm P}

/-- A client with a newly drawn account. -/
def new (account : L.Account) (conversationId : ConversationId) : OlmClient L where
  account := account
  session := none
  conversationId := conversationId
  displayedMessages := ∅

def signingIdentity (c : OlmClient L) : Ed25519PublicKey P := L.ed25519Key c.account

/-- Install what a staged computation returned, or keep the client. -/
def settle {α : Type} (c : OlmClient L) (staged : Except LabError (α × OlmClient L)) :
    Except LabError α × OlmClient L :=
  match staged with
  | .ok (value, next) => (.ok value, next)
  | .error e => (.error e, c)

def prekeyBundle (c : OlmClient L) (validUntil : UInt64) (entropy : Bytes) :
    Except LabError (PeerPreKey P) × OlmClient L :=
  let account := L.generateOneTimeKeys c.account 1 entropy
  match L.oneTimeKeys account with
  | [] => (.error .crypto, { c with account })
  | oneTimeKey :: _ =>
      let signingIdentity := L.ed25519Key account
      let curveIdentity := L.curve25519Key account
      let signature := L.sign account
        (peerPrekeySigningBytes signingIdentity curveIdentity oneTimeKey validUntil)
      (.ok { signingIdentity, curveIdentity, oneTimeKey, validUntil, signature },
        { c with account := L.markKeysAsPublished account })

def stageOutbound (c : OlmClient L) (peer : VerifiedPeerPreKey P) (now : UInt64)
    (entropy : Bytes) : Except LabError (Unit × OlmClient L) := do
  rejectIf (c.session.isSome = true) .sessionAlreadyExists
  rejectIf (peer.validUntil ≤ now) .peerVerificationFailed
  match L.createOutboundSession c.account peer.curveIdentity peer.oneTimeKey entropy with
  | none => .error .crypto
  | some session => .ok ((), { c with session := some session })

def startOutboundSession (c : OlmClient L) (peer : VerifiedPeerPreKey P) (now : UInt64)
    (entropy : Bytes) : Except LabError Unit × OlmClient L :=
  c.settle (c.stageOutbound peer now entropy)

/-- The ratchet has moved on when the encoding of its output fails. -/
def sealMessage (c : OlmClient L) (messageId : MessageId) (body : String) (sentAt : UInt64)
    (entropy : Bytes) : Except LabError (MessageId × EncryptedPacket) × OlmClient L :=
  let plaintext : PlainMessage :=
    { version := payloadVersion, conversationId := c.conversationId, messageId, sentAt, body }
  match L.encodePlain plaintext with
  | none => (.error .encoding, c)
  | some encoded =>
      match c.session with
      | none => (.error .missingSession, c)
      | some session =>
          match L.encrypt session encoded entropy with
          | (none, session) => (.error .crypto, { c with session := some session })
          | (some encrypted, session) =>
              match L.encodeMessage encrypted with
              | none => (.error .encoding, { c with session := some session })
              | some packet => (.ok (messageId, packet), { c with session := some session })

def validatePlaintext (c : OlmClient L) (plaintext : Bytes) (outerMessageId : MessageId) :
    Except LabError PlainMessage :=
  match L.decodePlain plaintext with
  | none => .error .invalidPayload
  | some message => do
      rejectIf (message.version ≠ payloadVersion) .invalidPayload
      rejectIf (message.conversationId ≠ c.conversationId) .wrongConversation
      rejectIf (message.messageId ≠ outerMessageId) .messageIdMismatch
      rejectIf (message.messageId ∈ c.displayedMessages) .duplicateMessage
      .ok message

def stageInitial (c : OlmClient L) (envelope : VerifiedEnvelope)
    (expectedSender : VerifiedPeerPreKey P) (now : UInt64) :
    Except LabError (OpenedMessage × OlmClient L) := do
  rejectIf (c.session.isSome = true) .sessionAlreadyExists
  rejectIf (envelope.expiresAt ≤ now) .unauthorized
  match L.decodeMessage envelope.packet with
  | none => .error .encoding
  | some (.normal _) => .error .expectedPreKey
  | some (.preKey preKey) =>
      match L.createInboundSession (L.fromPickle (L.pickle c.account))
        expectedSender.curveIdentity preKey with
      | (none, _) => .error .crypto
      | (some (session, plaintext), account) => do
          let message ← c.validatePlaintext plaintext envelope.messageId
          .ok (⟨message, envelope⟩,
            { c with
              account
              session := some session
              displayedMessages := insert message.messageId c.displayedMessages })

/-- Establish the inbound session with the first packet. -/
def openInitial (c : OlmClient L) (envelope : VerifiedEnvelope)
    (expectedSender : VerifiedPeerPreKey P) (now : UInt64) :
    Except LabError OpenedMessage × OlmClient L :=
  c.settle (c.stageInitial envelope expectedSender now)

def stageMessage (c : OlmClient L) (envelope : VerifiedEnvelope) (now : UInt64) :
    Except LabError (OpenedMessage × OlmClient L) := do
  rejectIf (envelope.expiresAt ≤ now) .unauthorized
  match L.decodeMessage envelope.packet, c.session with
  | none, _ => .error .encoding
  | some _, none => .error .missingSession
  | some olmMessage, some session =>
      match L.decrypt (L.sessionFromPickle (L.pickleSession session)) olmMessage with
      | (none, _) => .error .crypto
      | (some plaintext, session) => do
          let message ← c.validatePlaintext plaintext envelope.messageId
          .ok (⟨message, envelope⟩,
            { c with
              session := some session
              displayedMessages := insert message.messageId c.displayedMessages })

/-- Decrypt a packet on the established session. -/
def openMessage (c : OlmClient L) (envelope : VerifiedEnvelope) (now : UInt64) :
    Except LabError OpenedMessage × OlmClient L :=
  c.settle (c.stageMessage envelope now)

/-- What opening establishes, whichever way the packet was decrypted. -/
structure Accepts (c : OlmClient L) (envelope : VerifiedEnvelope) (now : UInt64)
    (opened : OpenedMessage) (next : OlmClient L) : Prop where
  carries : opened.envelope = envelope
  unexpired : now < envelope.expiresAt
  messageId : opened.message.messageId = envelope.messageId
  conversationId : opened.message.conversationId = c.conversationId
  fresh : opened.message.messageId ∉ c.displayedMessages
  same : next.conversationId = c.conversationId
  displayed : next.displayedMessages = insert opened.message.messageId c.displayedMessages

variable {c next : OlmClient L} {envelope : VerifiedEnvelope} {now : UInt64}
variable {opened : OpenedMessage}

theorem validatePlaintext_eq_ok {plaintext : Bytes} {outer : MessageId} {message : PlainMessage}
    (h : c.validatePlaintext plaintext outer = .ok message) :
    message.conversationId = c.conversationId ∧ message.messageId = outer ∧
      message.messageId ∉ c.displayedMessages := by
  unfold validatePlaintext at h
  split at h
  · cases h
  · simp only [bind_eq_ok, rejectIf_eq_ok, not_not, ne_eq, Except.ok.injEq] at h
    obtain ⟨_, _, _, conversation, _, outer, _, fresh, rfl⟩ := h
    exact ⟨conversation, outer, fresh⟩

theorem stageOutbound_spec {peer : VerifiedPeerPreKey P} {entropy : Bytes} {u : Unit}
    (h : c.stageOutbound peer now entropy = .ok (u, next)) :
    c.session = none ∧ now < peer.validUntil ∧ ∃ session,
      next = { c with session := some session } := by
  simp only [stageOutbound, bind_eq_ok, rejectIf_eq_ok, UInt64.not_le, Bool.not_eq_true,
    Option.isSome_eq_false_iff, Option.isNone_iff_eq_none] at h
  obtain ⟨_, absent, _, valid, h⟩ := h
  split at h
  · cases h
  · next session _ =>
    cases h
    exact ⟨absent, valid, session, rfl⟩

/-- What opening a first packet has decrypted and checked. -/
theorem stageInitial_spec {expectedSender : VerifiedPeerPreKey P}
    (h : c.stageInitial envelope expectedSender now = .ok (opened, next)) :
    ∃ preKey session plaintext account message,
      c.session = none ∧ now < envelope.expiresAt ∧
      L.decodeMessage envelope.packet = some (.preKey preKey) ∧
      L.createInboundSession (L.fromPickle (L.pickle c.account)) expectedSender.curveIdentity
        preKey = (some (session, plaintext), account) ∧
      c.validatePlaintext plaintext envelope.messageId = .ok message ∧
      opened = ⟨message, envelope⟩ ∧
      next = { c with
        account
        session := some session
        displayedMessages := insert message.messageId c.displayedMessages } := by
  simp only [stageInitial, bind_eq_ok, rejectIf_eq_ok, UInt64.not_le, Bool.not_eq_true,
    Option.isSome_eq_false_iff, Option.isNone_iff_eq_none] at h
  obtain ⟨_, absent, _, unexpired, h⟩ := h
  split at h
  · cases h
  · cases h
  · next preKey decoded =>
    split at h
    · cases h
    · next session plaintext account inbound =>
      obtain ⟨message, valid, same⟩ := bind_eq_ok.mp h
      cases same
      exact ⟨preKey, session, plaintext, account, message, absent, unexpired, decoded, inbound,
        valid, rfl, rfl⟩

/-- What opening a packet on the session has decrypted and checked. -/
theorem stageMessage_spec (h : c.stageMessage envelope now = .ok (opened, next)) :
    ∃ olmMessage session plaintext moved message,
      now < envelope.expiresAt ∧ L.decodeMessage envelope.packet = some olmMessage ∧
      c.session = some session ∧
      L.decrypt (L.sessionFromPickle (L.pickleSession session)) olmMessage =
        (some plaintext, moved) ∧
      c.validatePlaintext plaintext envelope.messageId = .ok message ∧
      opened = ⟨message, envelope⟩ ∧
      next = { c with
        session := some moved
        displayedMessages := insert message.messageId c.displayedMessages } := by
  simp only [stageMessage, bind_eq_ok, rejectIf_eq_ok, UInt64.not_le] at h
  obtain ⟨_, unexpired, h⟩ := h
  split at h
  · cases h
  · cases h
  · next olmMessage session decoded present =>
    split at h
    · cases h
    · next plaintext moved decrypted =>
      obtain ⟨message, valid, same⟩ := bind_eq_ok.mp h
      cases same
      exact ⟨olmMessage, session, plaintext, moved, message, unexpired, decoded, present,
        decrypted, valid, rfl, rfl⟩

theorem stageInitial_accepts {expectedSender : VerifiedPeerPreKey P}
    (h : c.stageInitial envelope expectedSender now = .ok (opened, next)) :
    c.Accepts envelope now opened next := by
  obtain ⟨_, _, _, _, message, _, unexpired, _, _, valid, rfl, rfl⟩ := stageInitial_spec h
  obtain ⟨conversation, outer, fresh⟩ := validatePlaintext_eq_ok valid
  exact ⟨rfl, unexpired, outer, conversation, fresh, rfl, rfl⟩

theorem stageMessage_accepts (h : c.stageMessage envelope now = .ok (opened, next)) :
    c.Accepts envelope now opened next := by
  obtain ⟨_, _, _, _, message, unexpired, _, _, _, valid, rfl, rfl⟩ := stageMessage_spec h
  obtain ⟨conversation, outer, fresh⟩ := validatePlaintext_eq_ok valid
  exact ⟨rfl, unexpired, outer, conversation, fresh, rfl, rfl⟩

end OlmClient

namespace Olm

/-- An Olm that encrypts nothing and can be evaluated. The first byte of a packet
tells the two kinds of message apart; the payload is the conversation followed by
the message id. -/
def symbolic : Olm .symbolic where
  Account := Unit
  AccountPickle := Unit
  Session := Unit
  SessionPickle := Unit
  PreKeyMessage := Bytes
  NormalMessage := Bytes
  ed25519Key _ := (Ed25519Keypair.symbolic (.fill 32 255)).publicKey
  curve25519Key _ := .fill 32 0
  sign _ message := (Ed25519Keypair.symbolic (.fill 32 255)).sign message
  generateOneTimeKeys account _ _ := account
  oneTimeKeys _ := [.fill 32 0]
  markKeysAsPublished account := account
  pickle account := account
  fromPickle account := account
  createOutboundSession account _ _ _ := some account
  createInboundSession account _ message := (some (account, message), account)
  pickleSession session := session
  sessionFromPickle session := session
  encrypt session plaintext _ := (some (.normal plaintext), session)
  decrypt session message :=
    match message with
    | .preKey plaintext | .normal plaintext => (some plaintext, session)
  encodeMessage message :=
    match message with
    | .preKey body => some (0 :: body)
    | .normal body => some (1 :: body)
  decodeMessage packet :=
    match packet with
    | 0 :: body => some (.preKey body)
    | 1 :: body => some (.normal body)
    | _ => none
  encodePlain message := some (message.conversationId.toList ++ message.messageId.toList)
  decodePlain plaintext :=
    match FixedBytes.fromSlice 16 (plaintext.take 16),
      FixedBytes.fromSlice 16 (plaintext.drop 16) with
    | some conversationId, some messageId =>
        some { version := 1, conversationId, messageId, sentAt := 0, body := "" }
    | _, _ => none

end Olm

end SecureMessenger
