import SecureMessenger.Client.Olm
import SecureMessenger.Relay.Separation

/-!
# Clients, capabilities and one relay

A run of the whole network interleaves what mailbox owners authorise, what clients
do, and what anybody submits to the relay. Requests are built through capabilities
only, and an acknowledgement only for a message that some client has opened. What
reaches the relay and what reaches a client is arbitrary: submitted calls and
received envelopes are any values at all, in any order and number.

The ledger of a run collects what was signed. Signatures are ideal when every
signature that is presented, to the relay in a request or to a client on an
envelope, and that verifies under some key, was made before with that key for
exactly those bytes.
-/

namespace SecureMessenger

open Machine Fallible

variable {P : Primitives}

/-- One request built through a capability of its owner. -/
inductive Authorization (P : Primitives)
  | register (owner : MailboxOwner P) (nonce : Nonce) (validUntil : UInt64)
  | send (owner : MailboxOwner P) (messageId : MessageId) (packet : EncryptedPacket)
      (expiresAt : UInt64)
  | fetch (owner : MailboxOwner P) (nonce : Nonce) (validUntil : UInt64)
  | ack (owner : MailboxOwner P) (opened : OpenedMessage) (validUntil : UInt64)
  | delete (owner : MailboxOwner P) (nonce : Nonce) (validUntil : UInt64)

/-- What the capability signs, with its key. -/
def Authorization.signed : Authorization P → Ed25519PublicKey P × Statement
  | register owner nonce validUntil =>
      (owner.manage.publicKey, (owner.registration nonce validUntil).statement)
  | send owner messageId packet expiresAt =>
      (owner.send.publicKey,
        (owner.senderCapability.authorize messageId packet expiresAt).statement)
  | fetch owner nonce validUntil =>
      (owner.receive.publicKey,
        (owner.receiverCapability.authorizeFetch nonce validUntil).statement)
  | ack owner opened validUntil =>
      (owner.receive.publicKey, (owner.receiverCapability.authorizeAck opened validUntil).statement)
  | delete owner nonce validUntil =>
      (owner.manage.publicKey, (owner.managerCapability.authorizeDelete nonce validUntil).statement)

/-- An envelope handed to a client: the capability of `owner` verifies it at
`checked`, and the client opens it at `now`, as the first packet from a sender or
on the established session. -/
structure Inbound (P : Primitives) where
  owner : MailboxOwner P
  stored : StoredEnvelope
  checked : UInt64
  sender : Option (VerifiedPeerPreKey P)
  now : UInt64

/-- The statement an envelope claims its sender signed. -/
def StoredEnvelope.statement (stored : StoredEnvelope) : Statement :=
  .send stored.queueId stored.messageId stored.packet stored.expiresAt

/-- What a client does of its own accord. -/
inductive LocalCall (P : Primitives)
  | prekeyBundle (validUntil : UInt64) (entropy : Bytes)
  | startOutboundSession (peer : VerifiedPeerPreKey P) (now : UInt64) (entropy : Bytes)
  | sealMessage (messageId : MessageId) (body : String) (sentAt : UInt64) (entropy : Bytes)

namespace OlmClient

variable {L : Olm P}

def receive (c : OlmClient L) (inbound : Inbound P) : Except LabError OpenedMessage × OlmClient L :=
  match inbound.owner.receiverCapability.verifyEnvelope inbound.stored inbound.checked with
  | .error e => (.error e, c)
  | .ok envelope =>
      match inbound.sender with
      | some sender => c.openInitial envelope sender inbound.now
      | none => c.openMessage envelope inbound.now

/-- The client after a call of its own. -/
def act (c : OlmClient L) : LocalCall P → OlmClient L
  | .prekeyBundle validUntil entropy => (c.prekeyBundle validUntil entropy).2
  | .startOutboundSession peer now entropy => (c.startOutboundSession peer now entropy).2
  | .sealMessage messageId body sentAt entropy => (c.sealMessage messageId body sentAt entropy).2

end OlmClient

inductive NetworkEvent (L : Olm P)
  | newClient (account : L.Account) (conversationId : ConversationId)
  | authorize (authorization : Authorization P)
  | receive (client : Nat) (inbound : Inbound P)
  | act (client : Nat) (call : LocalCall P)
  | submit (call : Call P)

/-- The call an event submits to the relay. -/
def NetworkEvent.submitted? {L : Olm P} : NetworkEvent L → Option (Call P)
  | .submit call => some call
  | _ => none

/-- The relay, the clients in the order they were made, and every message that some
client has opened. -/
structure Network (L : Olm P) where
  relay : Relay
  clients : List (OlmClient L)
  opened : List OpenedMessage

inductive NetworkReply
  | relayed (reply : Reply)
  | received (result : Except LabError OpenedMessage)
  | silent
deriving DecidableEq

namespace Network

variable {L : Olm P}

def initial : Network L := ⟨Relay.empty, [], []⟩

def receive (s : Network L) (client : Nat) (inbound : Inbound P) : NetworkReply × Network L :=
  match s.clients[client]? with
  | none => (.silent, s)
  | some c =>
      match c.receive inbound with
      | (.ok opened, c) =>
          (.received (.ok opened),
            { s with clients := s.clients.set client c, opened := s.opened ++ [opened] })
      | (.error e, c) => (.received (.error e), { s with clients := s.clients.set client c })

def act (s : Network L) (client : Nat) (call : LocalCall P) : Network L :=
  match s.clients[client]? with
  | none => s
  | some c => { s with clients := s.clients.set client (c.act call) }

def step (s : Network L) : NetworkEvent L → NetworkReply × Network L
  | .newClient account conversationId =>
      (.silent, { s with clients := s.clients ++ [.new account conversationId] })
  | .authorize _ => (.silent, s)
  | .receive client inbound => s.receive client inbound
  | .act client call => (.silent, s.act client call)
  | .submit call => (.relayed (s.relay.step P call).1, { s with relay := (s.relay.step P call).2 })

/-- What an event signs. An opened message can only be had from a client, so an
acknowledgement of any other signs nothing. -/
def signs (s : Network L) : NetworkEvent L → Option (Ed25519PublicKey P × Statement)
  | .authorize authorization =>
      match authorization with
      | .ack _ opened _ => if opened ∈ s.opened then some authorization.signed else none
      | _ => some authorization.signed
  | .act client (.prekeyBundle validUntil entropy) =>
      match s.clients[client]? with
      | none => none
      | some c => (c.prekeyBundle validUntil entropy).1.toOption.map fun bundle =>
          (bundle.signingIdentity, bundle.statement)
  | _ => none

/-- The message a client opens at an event. -/
def opens (s : Network L) (event : NetworkEvent L) : Option OpenedMessage :=
  match (s.step event).1 with
  | .received (.ok opened) => some opened
  | _ => none

def after (events : List (NetworkEvent L)) : Network L := run step initial events

def ledger (events : List (NetworkEvent L)) : Ledger P := collect step signs initial events

end Network

/-- Authorisations sign; submitted calls and received envelopes present. -/
def Network.signing {L : Olm P} : Signing P (NetworkEvent L) where
  ledger := Network.ledger
  presented
    | .submit call => call.presented
    | .receive _ inbound => some (inbound.stored.statement, inbound.stored.senderSignature)
    | _ => none
  grows before later entry member := by
    rw [Network.ledger, collect_append]
    exact List.mem_append_left _ member

namespace OlmClient

variable {L : Olm P} {c : OlmClient L} {inbound : Inbound P}

theorem settle_ok {α : Type} {staged : Except LabError (α × OlmClient L)} {value : α}
    (h : (c.settle staged).1 = .ok value) : staged = .ok (value, (c.settle staged).2) := by
  cases staged with
  | error e => cases h
  | ok result =>
      cases h
      rfl

theorem settle_error {α : Type} {staged : Except LabError (α × OlmClient L)} {e : LabError}
    (h : (c.settle staged).1 = .error e) : (c.settle staged).2 = c := by
  cases staged with
  | error e => rfl
  | ok result => cases h

theorem settle_keeps {α : Type} (property : OlmClient L → Prop) (stays : property c)
    {staged : Except LabError (α × OlmClient L)}
    (moves : ∀ value next, staged = .ok (value, next) → property next) :
    property (c.settle staged).2 := by
  cases staged with
  | error e => exact stays
  | ok result => exact moves result.1 result.2 rfl

/-- A client opens only what verified, under the checks of opening. -/
theorem receive_ok {opened : OpenedMessage} (h : (c.receive inbound).1 = .ok opened) :
    ∃ envelope,
      inbound.owner.receiverCapability.verifyEnvelope inbound.stored inbound.checked =
        .ok envelope ∧
      c.Accepts envelope inbound.now opened (c.receive inbound).2 := by
  unfold receive at h ⊢
  split
  · next failed =>
    rw [failed] at h
    cases h
  · next envelope verified =>
    rw [verified] at h
    refine ⟨envelope, verified, ?_⟩
    split
    · next sender present =>
      rw [present] at h
      exact stageInitial_accepts (settle_ok h)
    · next absent =>
      rw [absent] at h
      exact stageMessage_accepts (settle_ok h)

/-- An envelope that is not opened leaves the client as it was. -/
theorem receive_error {e : LabError} (h : (c.receive inbound).1 = .error e) :
    (c.receive inbound).2 = c := by
  unfold receive at h ⊢
  split
  · rfl
  · next envelope verified =>
    rw [verified] at h
    split
    · next sender present =>
      rw [present] at h
      exact settle_error h
    · next absent =>
      rw [absent] at h
      exact settle_error h

/-- A client's own calls leave its conversation and what it has displayed alone. -/
theorem act_frame (c : OlmClient L) (call : LocalCall P) :
    (c.act call).conversationId = c.conversationId ∧
      (c.act call).displayedMessages = c.displayedMessages := by
  cases call with
  | prekeyBundle validUntil entropy =>
      simp only [act, prekeyBundle]
      split <;> exact ⟨rfl, rfl⟩
  | startOutboundSession peer now entropy =>
      refine settle_keeps (fun next => next.conversationId = c.conversationId ∧
        next.displayedMessages = c.displayedMessages) ⟨rfl, rfl⟩ ?_
      intro u next staged
      obtain ⟨_, _, session, rfl⟩ := stageOutbound_spec staged
      exact ⟨rfl, rfl⟩
  | sealMessage messageId body sentAt entropy =>
      simp only [act, sealMessage]
      repeat' split
      all_goals exact ⟨rfl, rfl⟩

end OlmClient

namespace Network

variable {L : Olm P} {events : List (NetworkEvent L)} {s : Network L} {opened : OpenedMessage}

theorem after_concat (events : List (NetworkEvent L)) (event : NetworkEvent L) :
    after (events ++ [event]) = ((after events).step event).2 :=
  run_concat _ events event

theorem receive_eq {client : Nat} {c : OlmClient L} (present : s.clients[client]? = some c)
    (inbound : Inbound P) :
    (s.step (.receive client inbound)).1 = .received (c.receive inbound).1 ∧
      (s.step (.receive client inbound)).2.clients =
        s.clients.set client (c.receive inbound).2 := by
  simp only [step, Network.receive, present]
  obtain ⟨result, next⟩ := c.receive inbound
  cases result <;> exact ⟨rfl, rfl⟩

/-- What is opened is opened by a client that exists. -/
theorem opens_receive {client : Nat} {inbound : Inbound P}
    (opens : s.opens (.receive client inbound) = some opened) :
    ∃ c, s.clients[client]? = some c ∧ (c.receive inbound).1 = .ok opened := by
  cases present : s.clients[client]? with
  | none => simp [Network.opens, step, Network.receive, present] at opens
  | some c =>
      refine ⟨c, rfl, ?_⟩
      simp only [Network.opens, (receive_eq present inbound).1] at opens
      cases result : (c.receive inbound).1 with
      | error e =>
          rw [result] at opens
          cases opens
      | ok opened' =>
          rw [result] at opens
          exact congrArg Except.ok (Option.some.inj opens)

/-- Only an envelope that is received is opened. -/
theorem receive_of_opens {event : NetworkEvent L} (opens : s.opens event = some opened) :
    ∃ client inbound c, event = .receive client inbound ∧ s.clients[client]? = some c ∧
      (c.receive inbound).1 = .ok opened := by
  cases event with
  | newClient | authorize | act | submit => cases opens
  | receive client inbound =>
      obtain ⟨c, present, result⟩ := opens_receive opens
      exact ⟨client, inbound, c, rfl, present, result⟩

theorem relay_step (s : Network L) (event : NetworkEvent L) :
    (s.step event).2.relay = run (Relay.step P) s.relay event.submitted?.toList := by
  cases event with
  | newClient | authorize | submit => rfl
  | act client call =>
      simp only [step, Network.act]
      split <;> rfl
  | receive client inbound =>
      simp only [step, Network.receive]
      repeat' split
      all_goals rfl

/-- The relay sees the submitted calls and nothing else. -/
theorem relay_after (events : List (NetworkEvent L)) :
    (after events).relay = Relay.after P (events.filterMap NetworkEvent.submitted?) := by
  induction events using List.reverseRecOn with
  | nil => rfl
  | append_singleton events event ih =>
      rw [after_concat, relay_step, ih, List.filterMap_append, Relay.after, Relay.after, run_append]
      cases event <;> rfl

theorem opened_step (s : Network L) (event : NetworkEvent L) :
    (s.step event).2.opened = s.opened ++ (s.opens event).toList := by
  cases event with
  | newClient | authorize | submit => exact (List.append_nil _).symm
  | act client call =>
      simp only [opens, step, Network.act, Option.toList_none, List.append_nil]
      split <;> rfl
  | receive client inbound =>
      simp only [opens, step, Network.receive]
      split
      · exact (List.append_nil _).symm
      · split
        · rfl
        · exact (List.append_nil _).symm

/-- The opened messages are those that the events opened, in order. -/
theorem opened_after (events : List (NetworkEvent L)) :
    (after events).opened = collect step opens initial events := by
  induction events using List.reverseRecOn with
  | nil => rfl
  | append_singleton events event ih =>
      rw [after_concat, opened_step, collect_concat, ← ih]
      rfl

/-- What was signed in a run was signed by one of its events. -/
theorem mem_ledger {entry : Ed25519PublicKey P × Statement} (member : entry ∈ ledger events) :
    ∃ before event later, events = before ++ event :: later ∧
      (after before).signs event = some entry :=
  mem_collect member

/-- The bundle of a client is the only statement that no capability signs. -/
theorem authorization_of_signs {s : Network L} {event : NetworkEvent L}
    {entry : Ed25519PublicKey P × Statement} (signs : s.signs event = some entry)
    (relayed : entry.2.kind ≠ .peerPrekey) :
    ∃ authorization, event = .authorize authorization ∧ entry = authorization.signed ∧
      ∀ owner opened validUntil, authorization = .ack owner opened validUntil →
        opened ∈ s.opened := by
  cases event with
  | newClient | receive | submit => cases signs
  | authorize authorization =>
      refine ⟨authorization, rfl, ?_⟩
      cases authorization with
      | ack owner opened validUntil =>
          simp only [Network.signs] at signs
          split at signs
          · next member =>
            refine ⟨(Option.some.inj signs).symm, ?_⟩
            rintro _ _ _ ⟨rfl, rfl, rfl⟩
            exact member
          · cases signs
      | register | send | fetch | delete =>
          exact ⟨(Option.some.inj signs).symm, fun _ _ _ same => by cases same⟩
  | act client call =>
      cases call with
      | startOutboundSession | sealMessage => cases signs
      | prekeyBundle validUntil entropy =>
          simp only [Network.signs] at signs
          split at signs
          · cases signs
          · obtain ⟨bundle, _, rfl⟩ := Option.map_eq_some_iff.mp signs
            exact absurd rfl relayed

end Network

end SecureMessenger
