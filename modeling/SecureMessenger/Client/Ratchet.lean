import SecureMessenger.Client.Olm
import SecureMessenger.Library.Uri

/-!
# What a conversation needs of Olm

The laws of `Ratchet` say when the third-party library works as intended between two
ends. A session that was created from a bundle of the other end may encrypt any number of
messages before the first of them is accepted; from then on the two sessions are linked,
and each decrypts in order what the other has encrypted, while messages may be under way
in both directions. Pickles and codecs lose nothing, and a body within the limit gives a
packet that the relay takes.

With these laws a client that seals a message succeeds, and its peer opens the packet to
the same message.
-/

namespace SecureMessenger

open Fallible

variable {P : Primitives}

/-- A packet of the library. -/
abbrev Olm.Message (L : Olm P) := OlmMessage L.PreKeyMessage L.NormalMessage

/-- Packets under way from one end to the other, each with its plaintext. -/
abbrev Olm.Way (L : Olm P) := List (L.Message × Bytes)

/-- The laws of the library. `Offered account key session way` says that an account has yet
to accept a session of the end with this key, and `Linked session session' way way'` that
two sessions belong together. -/
structure Ratchet (L : Olm P) where
  Offered : L.Account → Curve25519PublicKey → L.Session → L.Way → Prop
  Linked : L.Session → L.Session → L.Way → L.Way → Prop
  bodyLimit : Nat
  oneTimeKey : ∀ account entropy, L.oneTimeKeys (L.generateOneTimeKeys account 1 entropy) ≠ []
  signs : ∀ account message,
    (L.ed25519Key account).verify message (L.sign account message) = true
  ed25519Key_generate : ∀ account count entropy,
    L.ed25519Key (L.generateOneTimeKeys account count entropy) = L.ed25519Key account
  ed25519Key_mark : ∀ account, L.ed25519Key (L.markKeysAsPublished account) = L.ed25519Key account
  curve25519Key_generate : ∀ account count entropy,
    L.curve25519Key (L.generateOneTimeKeys account count entropy) = L.curve25519Key account
  curve25519Key_mark : ∀ account,
    L.curve25519Key (L.markKeysAsPublished account) = L.curve25519Key account
  pickled : ∀ account, L.fromPickle (L.pickle account) = account
  sessionPickled : ∀ session, L.sessionFromPickle (L.pickleSession session) = session
  decodesMessage : ∀ {message packet}, L.encodeMessage message = some packet →
    L.decodeMessage packet = some message
  encodesPlain : ∀ message, ∃ bytes, L.encodePlain message = some bytes
  decodesPlain : ∀ {message bytes}, L.encodePlain message = some bytes →
    L.decodePlain bytes = some message
  offers : ∀ account peer entropy key entropy',
    (L.oneTimeKeys (L.generateOneTimeKeys peer 1 entropy)).head? = some key →
    ∃ session, L.createOutboundSession account (L.curve25519Key peer) key entropy' =
        some session ∧
      Offered (L.markKeysAsPublished (L.generateOneTimeKeys peer 1 entropy))
        (L.curve25519Key account) session []
  encryptsOffer : ∀ {account key session way}, Offered account key session way →
    ∀ plaintext entropy, ∃ message session',
      L.encrypt session plaintext entropy = (some message, session') ∧
        Offered account key session' (way ++ [(message, plaintext)])
  accepts : ∀ {account key session message plaintext way},
    Offered account key session ((message, plaintext) :: way) →
    ∃ preKey inbound account', message = .preKey preKey ∧
      L.createInboundSession account key preKey = (some (inbound, plaintext), account') ∧
      Linked session inbound way []
  symm : ∀ {session session' way way'}, Linked session session' way way' →
    Linked session' session way' way
  encrypts : ∀ {session session' way way'}, Linked session session' way way' →
    ∀ plaintext entropy, ∃ message next,
      L.encrypt session plaintext entropy = (some message, next) ∧
        Linked next session' (way ++ [(message, plaintext)]) way'
  decrypts : ∀ {session session' message plaintext way way'},
    Linked session session' ((message, plaintext) :: way) way' →
    ∃ next, L.decrypt session' message = (some plaintext, next) ∧ Linked session next way way'
  packs : ∀ {plain bytes session entropy message next}, L.encodePlain plain = some bytes →
    plain.body.utf8ByteSize ≤ bodyLimit →
    L.encrypt session bytes entropy = (some message, next) →
    ∃ packet, L.encodeMessage message = some packet ∧ packet ≠ [] ∧
      packet.length ≤ maxPacketBytes

namespace Olm

/-- A payload as its fields in sequence. -/
def writePlain (message : PlainMessage) : Bytes :=
  message.version :: (message.conversationId.toList ++ (message.messageId.toList ++
    (toBeBytes message.sentAt ++ Uri.bytes message.body)))

def readPlain : Bytes → Option PlainMessage
  | [] => none
  | version :: rest => do
      let conversationId ← FixedBytes.fromSlice 16 (rest.take 16)
      let messageId ← FixedBytes.fromSlice 16 ((rest.drop 16).take 16)
      let sentAt := UInt64.ofNat (Framing.beValue ((rest.drop 32).take 8))
      let body ← Uri.text? (rest.drop 40)
      some { version, conversationId, messageId, sentAt, body }

theorem readPlain_writePlain (message : PlainMessage) :
    readPlain (writePlain message) = some message := by
  let rest := message.conversationId.toList ++ (message.messageId.toList ++
    (toBeBytes message.sentAt ++ Uri.bytes message.body))
  have conversationId : rest.take 16 = message.conversationId.toList :=
    List.take_left' message.conversationId.length_toList
  have later : rest.drop 16 = message.messageId.toList ++
      (toBeBytes message.sentAt ++ Uri.bytes message.body) :=
    List.drop_left' message.conversationId.length_toList
  have messageId : (rest.drop 16).take 16 = message.messageId.toList := by
    rw [later]
    exact List.take_left' message.messageId.length_toList
  have last : rest.drop 32 = toBeBytes message.sentAt ++ Uri.bytes message.body := by
    rw [← List.drop_drop (i := 16) (j := 16), later]
    exact List.drop_left' message.messageId.length_toList
  have sentAt : (rest.drop 32).take 8 = toBeBytes message.sentAt := by
    rw [last]
    exact List.take_left' (length_toBeBytes message.sentAt)
  have body : rest.drop 40 = Uri.bytes message.body := by
    rw [← List.drop_drop (i := 8) (j := 32), last]
    exact List.drop_left' (length_toBeBytes message.sentAt)
  have time : Framing.beValue (toBeBytes message.sentAt) = message.sentAt.toNat :=
    Framing.beValue_beBytes message.sentAt.toNat_lt
  change readPlain (message.version :: rest) = some message
  simp only [readPlain, conversationId, messageId, sentAt, body, time,
    FixedBytes.fromSlice_toList, Uri.text?_bytes, UInt64.ofNat_toNat, Option.bind_eq_bind,
    Option.bind_some]

theorem length_writePlain (message : PlainMessage) :
    (writePlain message).length = 41 + message.body.utf8ByteSize := by
  have body : (Uri.bytes message.body).length = message.body.utf8ByteSize := rfl
  simp only [writePlain, List.length_cons, List.length_append, FixedBytes.length_toList,
    length_toBeBytes, body]
  omega

/-- An Olm that hides nothing and keeps the laws. A session knows whether its peer has
accepted it: until then its packets are of the first kind. -/
def transparent : Olm .symbolic where
  Account := Unit
  AccountPickle := Unit
  Session := Bool
  SessionPickle := Bool
  PreKeyMessage := Bytes
  NormalMessage := Bytes
  ed25519Key _ := (Ed25519Keypair.symbolic (.fill 32 255)).publicKey
  curve25519Key _ := .fill 32 0
  sign _ message := (Ed25519Keypair.symbolic (.fill 32 255)).sign message
  generateOneTimeKeys account _ _ := account
  oneTimeKeys _ := [.fill 32 0]
  markKeysAsPublished account := account
  pickle account := account
  fromPickle account := account
  createOutboundSession _ _ _ _ := some false
  createInboundSession account _ message := (some (true, message), account)
  pickleSession session := session
  sessionFromPickle session := session
  encrypt accepted plaintext _ :=
    (some (if accepted then .normal plaintext else .preKey plaintext), accepted)
  decrypt _ message :=
    match message with
    | .preKey plaintext | .normal plaintext => (some plaintext, true)
  encodeMessage message :=
    match message with
    | .preKey body => some (0 :: body)
    | .normal body => some (1 :: body)
  decodeMessage packet :=
    match packet with
    | 0 :: body => some (.preKey body)
    | 1 :: body => some (.normal body)
    | _ => none
  encodePlain message := some (writePlain message)
  decodePlain := readPlain

end Olm

/-- A packet that carries its plaintext openly. -/
def OlmMessage.Shows (entry : Olm.transparent.Message × Bytes) : Prop :=
  entry.1 = .preKey entry.2 ∨ entry.1 = .normal entry.2

def Ratchet.transparent : Ratchet Olm.transparent where
  Offered _ _ accepted way := accepted = false ∧ ∀ entry ∈ way, entry.1 = .preKey entry.2
  Linked _ _ way way' :=
    (∀ entry ∈ way, OlmMessage.Shows entry) ∧ ∀ entry ∈ way', OlmMessage.Shows entry
  bodyLimit := 1000000
  oneTimeKey _ _ := List.cons_ne_nil _ _
  signs _ message := Primitives.symbolic_genuine (.symbolic (.fill 32 255)) message
  ed25519Key_generate _ _ _ := rfl
  ed25519Key_mark _ := rfl
  curve25519Key_generate _ _ _ := rfl
  curve25519Key_mark _ := rfl
  pickled _ := rfl
  sessionPickled _ := rfl
  decodesMessage {message packet} encoded := by
    cases message <;> cases encoded <;> rfl
  encodesPlain message := ⟨_, rfl⟩
  decodesPlain {message bytes} encoded := by
    cases encoded
    exact Olm.readPlain_writePlain message
  offers _ _ _ _ _ _ := ⟨false, rfl, rfl, List.forall_mem_nil _⟩
  encryptsOffer {_ _ session way} offered plaintext entropy := by
    obtain ⟨rfl, shown⟩ := offered
    refine ⟨.preKey plaintext, false, rfl, rfl, fun entry member => ?_⟩
    obtain old | new := List.mem_append.mp member
    · exact shown entry old
    · rw [List.mem_singleton.mp new]
  accepts {_ _ _ message plaintext way} offered := by
    obtain ⟨first, rest⟩ := List.forall_mem_cons.mp offered.2
    exact ⟨plaintext, true, (), first, rfl, fun entry member => .inl (rest entry member),
      List.forall_mem_nil _⟩
  symm linked := ⟨linked.2, linked.1⟩
  encrypts {accepted _ _ _} linked plaintext entropy := by
    refine ⟨_, accepted, rfl, fun entry member => ?_, linked.2⟩
    obtain old | new := List.mem_append.mp member
    · exact linked.1 entry old
    · rw [List.mem_singleton.mp new]
      cases accepted with
      | false => exact .inl rfl
      | true => exact .inr rfl
  decrypts {_ _ message plaintext _ _} linked := by
    obtain ⟨first, rest⟩ := List.forall_mem_cons.mp linked.1
    have kind : message = .preKey plaintext ∨ message = .normal plaintext := first
    refine ⟨true, ?_, rest, linked.2⟩
    obtain rfl | rfl := kind <;> rfl
  packs {plain bytes accepted entropy message next} encoded short encrypted := by
    cases encoded
    cases encrypted
    have fits : (Olm.writePlain plain).length + 1 ≤ maxPacketBytes := by
      rw [Olm.length_writePlain, maxPacketBytes]
      omega
    cases accepted <;> exact ⟨_, rfl, List.cons_ne_nil _ _, fits⟩

/-- The two ends of a conversation. -/
inductive Side
  | alice
  | bob
deriving DecidableEq

def Side.peer : Side → Side
  | alice => bob
  | bob => alice

/-- One thing for each end. -/
def Side.pick {α : Type} (alice bob : α) : Side → α
  | .alice => alice
  | .bob => bob

@[simp] theorem Side.peer_peer (side : Side) : side.peer.peer = side := by cases side <;> rfl

@[simp] theorem Side.peer_ne (side : Side) : side.peer ≠ side := by cases side <;> nofun

@[simp] theorem Side.ne_peer (side : Side) : side ≠ side.peer := by cases side <;> nofun

theorem Side.eq_or_peer (side other : Side) : other = side ∨ other = side.peer := by
  cases side <;> cases other <;> simp [peer]

namespace OlmClient

variable {L : Olm P} {c : OlmClient L}

/-- The message that a client puts into an envelope. -/
def plain (c : OlmClient L) (messageId : MessageId) (body : String) (sentAt : UInt64) :
    PlainMessage where
  version := payloadVersion
  conversationId := c.conversationId
  messageId := messageId
  sentAt := sentAt
  body := body

theorem sealMessage_of_session {session next : L.Session} {messageId : MessageId} {body : String}
    {sentAt : UInt64} {entropy bytes : Bytes} {message : L.Message} {packet : EncryptedPacket}
    (present : c.session = some session)
    (encoded : L.encodePlain (c.plain messageId body sentAt) = some bytes)
    (encrypted : L.encrypt session bytes entropy = (some message, next))
    (packed : L.encodeMessage message = some packet) :
    c.sealMessage messageId body sentAt entropy =
      (.ok (messageId, packet), { c with session := some next }) := by
  simp only [plain] at encoded
  simp only [sealMessage, encoded, present, encrypted, packed]

theorem sealMessage_of_absent {messageId : MessageId} {body : String} {sentAt : UInt64}
    {entropy bytes : Bytes} (absent : c.session = none)
    (encoded : L.encodePlain (c.plain messageId body sentAt) = some bytes) :
    c.sealMessage messageId body sentAt entropy = (.error .missingSession, c) := by
  simp only [plain] at encoded
  simp only [sealMessage, encoded, absent]

/-- A message of this conversation under a new id is accepted. -/
theorem validatePlaintext_of_plain {bytes : Bytes} {message : PlainMessage}
    (decoded : L.decodePlain bytes = some message) (version : message.version = payloadVersion)
    (conversation : message.conversationId = c.conversationId)
    (fresh : message.messageId ∉ c.displayedMessages) :
    c.validatePlaintext bytes message.messageId = .ok message := by
  rw [validatePlaintext, decoded]
  simp only [rejectIf_of_not (not_not_intro version), rejectIf_of_not (not_not_intro conversation),
    rejectIf_of_not (not_not_intro rfl), rejectIf_of_not fresh, ok_bind]

/-- The client after it has opened a message. -/
def showing (c : OlmClient L) (account : L.Account) (session : L.Session)
    (messageId : MessageId) : OlmClient L :=
  { c with
    account
    session := some session
    displayedMessages := insert messageId c.displayedMessages }

theorem openInitial_of_offer {envelope : VerifiedEnvelope} {sender : VerifiedPeerPreKey P}
    {now : UInt64} {preKey : L.PreKeyMessage} {session : L.Session} {bytes : Bytes}
    {account : L.Account} {message : PlainMessage} (absent : c.session = none)
    (unexpired : now < envelope.expiresAt)
    (decoded : L.decodeMessage envelope.packet = some (.preKey preKey))
    (pickled : L.fromPickle (L.pickle c.account) = c.account)
    (inbound : L.createInboundSession c.account sender.curveIdentity preKey =
      (some (session, bytes), account))
    (valid : c.validatePlaintext bytes envelope.messageId = .ok message) :
    c.openInitial envelope sender now =
      (.ok ⟨message, envelope⟩, c.showing account session message.messageId) := by
  have timely : ¬ envelope.expiresAt ≤ now := UInt64.not_le.mpr unexpired
  simp only [openInitial, stageInitial, absent, Option.isSome_none, Bool.false_eq_true,
    not_false_eq_true, rejectIf_of_not, timely, ok_bind, decoded, pickled, inbound, valid]
  rfl

theorem openMessage_of_session {envelope : VerifiedEnvelope} {now : UInt64} {message : L.Message}
    {session next : L.Session} {bytes : Bytes} {plain : PlainMessage}
    (present : c.session = some session) (unexpired : now < envelope.expiresAt)
    (decoded : L.decodeMessage envelope.packet = some message)
    (pickled : L.sessionFromPickle (L.pickleSession session) = session)
    (decrypted : L.decrypt session message = (some bytes, next))
    (valid : c.validatePlaintext bytes envelope.messageId = .ok plain) :
    c.openMessage envelope now =
      (.ok ⟨plain, envelope⟩, c.showing c.account next plain.messageId) := by
  have timely : ¬ envelope.expiresAt ≤ now := UInt64.not_le.mpr unexpired
  simp only [openMessage, stageMessage, present, rejectIf_of_not timely, ok_bind, decoded,
    pickled, decrypted, valid]
  rfl

end OlmClient

end SecureMessenger
