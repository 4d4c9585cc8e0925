import SecureMessenger.Relay.Fifo
import SecureMessenger.Relay.Lifecycle
import SecureMessenger.Relay.Separation

/-!
# What the relay accepts, the recipient accepts

The bytes that are signed are assembled once when a capability builds a request and
again when the relay or the recipient checks it, and the fields cross the columns of
the database in between. A live mailbox keeps its keys, so every request of its owner
passes the relay's signature check; and every message in it was verified under the
send key it has now, so the recipient's own check of a fetched envelope succeeds.
-/

namespace SecureMessenger

open Fallible Machine

variable {P : Primitives}

namespace Mailbox

variable {m m' : Mailbox}

/-- Every stored message is the row of a send request that verifies under the send
key of the mailbox. -/
def Signed (P : Primitives) (m : Mailbox) : Prop :=
  ∀ row ∈ m.messages, ∃ (sent : SendRequest) (key : Ed25519PublicKey P),
    row = messageOf sent sent.expiresAt.toNat ∧ m.key P .sendKey = .ok key ∧
      key.verify (sent.signingBytes P) sent.signature = true

/-- The same row and fewer messages. -/
theorem Signed.mono (signed : m.Signed P) (rows : m'.rows = m.rows)
    (fewer : ∀ row ∈ m'.messages, row ∈ m.messages) : m'.Signed P := by
  intro row member
  obtain ⟨sent, key, same, hasKey, verified⟩ := signed row (fewer row member)
  refine ⟨sent, key, same, ?_, verified⟩
  rw [← hasKey, Mailbox.key, Mailbox.key, rows]

theorem Signed.sweep (signed : m.Signed P) (now : Int) : (m.sweep now).Signed P :=
  signed.mono rfl fun _ member => (mem_messages_sweep.mp member).1

theorem Signed.keeps (signed : m.Signed P) (formed : m.WellFormed) {call : Call P} {reply : Reply}
    (effect : Effect P m call reply m') : m'.Signed P := by
  have swept := fun now : Int => signed.sweep now
  cases effect with
  | refused => exact signed
  | registered request now _ _ _ _ absent =>
      -- The keys are new, but a mailbox without a row has no messages.
      intro row member
      change row ∈ ((m.sweep now.toNat).noteRegistration _ _ _).messages at member
      rw [messages_noteRegistration, mem_messages_sweep, (formed.childless absent).1] at member
      cases member.1
  | registeredAgain request now =>
      refine (swept now.toNat).mono (rows_noteRegistration _ _ _) fun row member => ?_
      rwa [messages_noteRegistration] at member
  | stored request now _ _ authorised =>
      intro row member
      obtain old | new := List.mem_append.mp member
      · exact swept now.toNat row old
      · obtain ⟨key, hasKey, verified⟩ := authorised.signed
        exact ⟨request, key, List.mem_singleton.mp new, hasKey, verified⟩
  | duplicate | fetched | alreadyDeleted => exact swept _
  | deleted request now =>
      exact (swept now.toNat).mono rfl fun row member => (mem_messages_bury.mp member).1
  | mailboxDeleted =>
      intro row member
      cases member

theorem Signed.stands (signed : m.Signed P) {collision : Prop} {now : UInt64}
    (bystander : Bystander collision now m m') : m'.Signed P := by
  cases bystander with
  | untouched => exact signed
  | swept | retired => exact signed.sweep now.toNat

/-- A stored key is read back from its column. -/
theorem StoredKeys.key {send receive manage : Ed25519PublicKey P}
    (stored : m.StoredKeys send receive manage) (column : KeyColumn) :
    m.key P column = .ok (column.pick send receive manage) := by
  obtain ⟨row, rows, sendColumn, receiveColumn, manageColumn⟩ := stored.live
  have read : column.read row = (column.pick send receive manage).asBytes := by
    cases column with
    | sendKey => exact sendColumn
    | receiveKey => exact receiveColumn
    | manageKey => exact manageColumn
  rw [Mailbox.key, rows, List.head?_cons]
  simp only [decodeKey, read, Ed25519PublicKey.asBytes, FixedBytes.fromSlice_toList,
    Ed25519PublicKey.fromSlice_bytes]

end Mailbox

namespace Relay

theorem signed_after (calls : List (Call P)) (q : QueueId) :
    ((Relay.after P calls).mailbox P q).Signed P := by
  have both := run_mailbox (fun m => m.WellFormed ∧ m.Signed P)
    (fun h effect => ⟨h.1.keeps effect, h.2.keeps h.1 effect⟩)
    (fun h bystander => ⟨h.1.stands bystander, h.2.stands bystander⟩)
    current_empty (q := q) ⟨Mailbox.wellFormed_absent, by rintro _ ⟨⟩⟩ calls
  exact both.2

/-- The signature check of an operation, made after its sweep: the key is found in its
column and the signature verifies. -/
def Verifies (P : Primitives) (r : Relay) (queueId : QueueId) (column : KeyColumn)
    (message : Bytes) (signature : Ed25519Signature) : Prop :=
  ∀ (now : UInt64) (purged : Nat × Tables), purgeExpiredIn r.image.tables now = .ok purged →
    ∃ key, mailboxKey P purged.2 queueId column = .ok key ∧ key.verify message signature = true

theorem verifies_of_key {r : Relay} {q : QueueId} {column : KeyColumn} {message : Bytes}
    {signature : Ed25519Signature} {key : Ed25519PublicKey P}
    (hasKey : (r.mailbox P q).key P column = .ok key)
    (verified : key.verify message signature = true) :
    r.Verifies P q column message signature := by
  intro now purged sweeps
  obtain ⟨_, view⟩ := Tables.purgeExpiredIn_other (P := P) q sweeps
  refine ⟨key, ?_, verified⟩
  rw [Tables.mailboxKey_mailbox, view]
  exact hasKey

/-- Every request that the capabilities of an owner build passes the signature check of
its operation. -/
structure Honours (P : Primitives) (r : Relay) (owner : MailboxOwner P) : Prop where
  send : ∀ messageId packet expiresAt,
    let request := owner.senderCapability.authorize messageId packet expiresAt
    r.Verifies P request.queueId .sendKey (request.signingBytes P) request.signature
  fetch : ∀ nonce validUntil,
    let request := owner.receiverCapability.authorizeFetch nonce validUntil
    r.Verifies P request.queueId .receiveKey request.signingBytes request.signature
  ack : ∀ opened validUntil,
    let request := owner.receiverCapability.authorizeAck opened validUntil
    r.Verifies P request.queueId .receiveKey request.signingBytes request.signature
  delete : ∀ nonce validUntil,
    let request := owner.managerCapability.authorizeDelete nonce validUntil
    r.Verifies P request.queueId .manageKey request.signingBytes request.signature

/-- The mailbox of an owner, live under the owner's keys. -/
def Hosts (r : Relay) (owner : MailboxOwner P) : Prop :=
  (r.mailbox P owner.queueId).StoredKeys owner.send.publicKey owner.receive.publicKey
    owner.manage.publicKey

theorem Hosts.honours {r : Relay} {owner : MailboxOwner P} (hosts : r.Hosts owner)
    (genuine : P.Genuine) : r.Honours P owner where
  send _ _ _ := verifies_of_key (hosts.key .sendKey) (genuine owner.send _)
  fetch _ _ := verifies_of_key (hosts.key .receiveKey) (genuine owner.receive _)
  ack _ _ := verifies_of_key (hosts.key .receiveKey) (genuine owner.receive _)
  delete _ _ := verifies_of_key (hosts.key .manageKey) (genuine owner.manage _)

/-- A mailbox is hosted under the same keys until it is deleted. -/
theorem Hosts.later {calls : List (Call P)} {owner : MailboxOwner P}
    (hosts : (Relay.after P calls).Hosts owner) (later : List (Call P)) :
    ((Relay.after P (calls ++ later)).mailbox P owner.queueId).Gone ∨
      (Relay.after P (calls ++ later)).Hosts owner := by
  obtain same | gone := rows_after hosts.ne_nil later
  · obtain ⟨row, rows, keys⟩ := hosts.live
    exact .inr ⟨row, same.trans rows, keys⟩
  · exact .inl gone

/-- What a fetch returns, the owner's receive capability verifies. -/
theorem Hosts.verifyEnvelope {r : Relay} {owner : MailboxOwner P} (hosts : r.Hosts owner)
    (signed : (r.mailbox P owner.queueId).Signed P) {request : FetchRequest} {now : UInt64}
    (own : request.queueId = owner.queueId) {envelopes : List StoredEnvelope}
    (fetched : (r.step P (.fetch request now)).1 = .ok (.fetched envelopes)) :
    ∀ envelope ∈ envelopes, owner.receiverCapability.verifyEnvelope envelope now =
      .ok { queueId := envelope.queueId, messageId := envelope.messageId,
            packet := envelope.packet, expiresAt := envelope.expiresAt } := by
  intro envelope member
  have effect := r.own_effect (P := P) (.fetch request now) rfl
  rw [fetched] at effect
  generalize (r.step P (.fetch request now)).2.mailbox P request.queueId = m' at effect
  cases effect with
  | fetched _ _ _ _ _ _ decoded =>
      rw [own] at decoded
      obtain ⟨row, listed, one⟩ := mem_of_mapM_eq_ok decoded member
      obtain ⟨stored, unexpired⟩ := Mailbox.mem_messages_sweep.mp listed
      obtain ⟨sent, key, rfl, hasKey, verified⟩ := signed row stored
      have queue : sent.queueId = owner.queueId :=
        FixedBytes.toList_inj.mp (of_decide_eq_true (List.mem_filter.mp stored).2)
      rw [← queue, Mailbox.decodeEnvelope_messageOf] at one
      obtain rfl := Except.ok.inj one
      have sender : key = owner.send.publicKey :=
        Except.ok.inj (hasKey.symm.trans (hosts.key .sendKey))
      refine ReceiveCapability.verifyEnvelope_eq_ok.mpr ⟨queue, ?_, ?_, rfl⟩
      · exact UInt64.lt_iff_toNat_lt.mpr (Int.ofNat_lt.mp unexpired)
      · rw [sender] at verified
        exact verified

/-- From the moment a mailbox is live under its owner's keys, and until it is deleted,
every request of the owner passes the relay's signature check, and every envelope that a
fetch returns passes the recipient's. -/
theorem recipient_accepts (genuine : P.Genuine) (owner : MailboxOwner P)
    (calls later : List (Call P)) (hosts : (Relay.after P calls).Hosts owner) :
    (∀ nonce validUntil, (owner.registration nonce validUntil).manageKey.verify
      (owner.registration nonce validUntil).signingBytes
      (owner.registration nonce validUntil).signature = true) ∧
    (((Relay.after P (calls ++ later)).mailbox P owner.queueId).Gone ∨
      (Relay.after P (calls ++ later)).Honours P owner) ∧
    ∀ (request : FetchRequest) (now : UInt64) (envelopes : List StoredEnvelope),
      request.queueId = owner.queueId →
      ((Relay.after P (calls ++ later)).step P (.fetch request now)).1 =
        .ok (.fetched envelopes) →
      ∀ envelope ∈ envelopes, owner.receiverCapability.verifyEnvelope envelope now =
        .ok { queueId := envelope.queueId, messageId := envelope.messageId,
              packet := envelope.packet, expiresAt := envelope.expiresAt } := by
  refine ⟨fun _ _ => genuine owner.manage _, ?_, ?_⟩
  · obtain gone | hosts := hosts.later later
    · exact .inl gone
    · exact .inr (hosts.honours genuine)
  · intro request now envelopes own fetched
    obtain gone | hosts := hosts.later later
    · rw [← own] at gone
      obtain ⟨⟨e, refused⟩, _⟩ := gone.refuses (own_effect _ (.fetch request now) rfl)
      rw [refused] at fetched
      cases fetched
    · exact hosts.verifyEnvelope (signed_after _ _) own fetched

namespace Correspondence

def owner : MailboxOwner .symbolic := .symbolic 1
def stranger : MailboxOwner .symbolic := .symbolic 41

/-- The mailbox is registered. -/
def calls : List (Call .symbolic) := [.register (owner.registration (.fill 16 5) 160) 100]

/-- Its owner sends to it and repeats the request; somebody else tries to send as well. -/
def later : List (Call .symbolic) :=
  [.enqueue (owner.senderCapability.authorize (.fill 16 1) [1] 400) 101,
    .enqueue { owner.senderCapability.authorize (.fill 16 2) [2] 400 with
      signature := (stranger.senderCapability.authorize (.fill 16 2) [2] 400).signature } 102,
    .enqueue (owner.senderCapability.authorize (.fill 16 1) [1] 400) 103]

def read : FetchRequest := owner.receiverCapability.authorizeFetch (.fill 16 7) 200

/-- The one message that the relay accepted. -/
def delivered : StoredEnvelope := (owner.senderCapability.authorize (.fill 16 1) [1] 400).envelope

theorem hosts_owner : (Relay.after .symbolic calls).Hosts owner :=
  ⟨Mailbox.rowOf (owner.registration (.fill 16 5) 160) 100, by decide +kernel, rfl, rfl, rfl⟩

end Correspondence

open Correspondence in
theorem recipient_accepts_correspondence :
    ((Relay.after .symbolic (calls ++ later)).step .symbolic (.fetch read 110)).1 =
      .ok (.fetched [delivered]) ∧
    owner.receiverCapability.verifyEnvelope delivered 110 =
      .ok { queueId := delivered.queueId, messageId := delivered.messageId,
            packet := delivered.packet, expiresAt := delivered.expiresAt } :=
  ⟨by decide +kernel,
    (recipient_accepts Primitives.symbolic_genuine owner calls later hosts_owner).2.2 read 110
      [delivered] rfl (by decide +kernel) delivered (List.mem_singleton.mpr rfl)⟩

end Relay

end SecureMessenger
