import SecureMessenger.Client.Ratchet
import SecureMessenger.Relay.Inbox

/-!
# A conversation over the relay

Two clients exchange messages as the demonstration program does: the sender seals a body,
authorises the packet for the mailbox of its peer and enqueues it; the recipient fetches,
verifies and opens the oldest envelope and acknowledges it. They take turns in any order,
with any number of messages under way in either direction. In between, an attacker who
sees every request repeats any of them at any time, and anybody submits anything that is
not signed by the owners of the two mailboxes: calls on other mailboxes, forgeries,
sweeps, restarts.

`Channels` is what the two users see: two queues. The conversation refines it.
-/

namespace SecureMessenger

open Fallible Machine

variable {P : Primitives}

/-- What is fixed during a conversation: the mailboxes of the two ends, and the contact
bundle of each end as the other has verified it. -/
structure Setting (P : Primitives) where
  inbox : Side → MailboxOwner P
  contact : Side → VerifiedPeerPreKey P

/-- What a sender chooses or draws for one message. -/
structure Draft where
  messageId : MessageId
  body : String
  expiresAt : UInt64
  entropy : Bytes

inductive Turn (P : Primitives)
  | send (side : Side) (draft : Draft) (now : UInt64)
  | receive (side : Side) (nonce : Nonce) (validUntil now : UInt64)
  | replay (index : Nat) (now : UInt64)
  | intrude (call : Call P)

/-- What the user of an end sees of a turn. -/
inductive Observation
  | sent (result : Except LabError EnqueueOutcome)
  | received (result : Except LabError PlainMessage)
  | unseen

/-- The same request at another time. -/
def Call.resubmit (now : UInt64) : Call P → Call P
  | .register request _ => .register request now
  | .enqueue request _ => .enqueue request now
  | .fetch request _ => .fetch request now
  | .acknowledge request _ => .acknowledge request now
  | .deleteMailbox request _ => .deleteMailbox request now
  | .purgeExpired _ => .purgeExpired now
  | .queuedMessageCountAt _ => .queuedMessageCountAt now
  | .reopen _ => .reopen now

/-- The first packet establishes the session, the others use it. -/
def OlmClient.openEnvelope {L : Olm P} (c : OlmClient L) (sender : VerifiedPeerPreKey P)
    (envelope : VerifiedEnvelope) (now : UInt64) : Except LabError OpenedMessage × OlmClient L :=
  match c.session with
  | none => c.openInitial envelope sender now
  | some _ => c.openMessage envelope now

/-- The relay, the two clients, and the requests they have submitted. -/
structure Conversation (L : Olm P) where
  relay : Relay
  client : Side → OlmClient L
  submitted : List (Call P)

namespace Conversation

variable {L : Olm P} (setting : Setting P)

def sendMessage (s : Conversation L) (side : Side) (draft : Draft) (now : UInt64) :
    Except LabError EnqueueOutcome × Conversation L :=
  match (s.client side).sealMessage draft.messageId draft.body now draft.entropy with
  | (.error e, client) => (.error e, { s with client := Function.update s.client side client })
  | (.ok (messageId, packet), client) =>
      let request := (setting.inbox side.peer).senderCapability.authorize messageId packet
        draft.expiresAt
      ((s.relay.enqueue P request now).1,
        { relay := (s.relay.enqueue P request now).2
          client := Function.update s.client side client
          submitted := s.submitted ++ [.enqueue request now] })

/-- Acknowledge what was opened. -/
def confirm (s : Conversation L) (side : Side) (opened : OpenedMessage) (validUntil now : UInt64) :
    Except LabError PlainMessage × Conversation L :=
  let ack := (setting.inbox side).receiverCapability.authorizeAck opened validUntil
  let next : Conversation L :=
    { s with
      relay := (s.relay.acknowledge P ack now).2
      submitted := s.submitted ++ [.acknowledge ack now] }
  match (s.relay.acknowledge P ack now).1 with
  | .error e => (.error e, next)
  | .ok .alreadyDeleted => (.error .storage, next)
  | .ok .deleted => (.ok opened.message, next)

/-- Open an envelope that was fetched. -/
def take (s : Conversation L) (side : Side) (stored : StoredEnvelope) (validUntil now : UInt64) :
    Except LabError PlainMessage × Conversation L :=
  match (setting.inbox side).receiverCapability.verifyEnvelope stored now with
  | .error e => (.error e, s)
  | .ok envelope =>
      match (s.client side).openEnvelope (setting.contact side.peer) envelope now with
      | (.error e, client) => (.error e, { s with client := Function.update s.client side client })
      | (.ok opened, client) =>
          confirm setting { s with client := Function.update s.client side client } side opened
            validUntil now

def receiveMessage (s : Conversation L) (side : Side) (nonce : Nonce) (validUntil now : UInt64) :
    Except LabError PlainMessage × Conversation L :=
  let request := (setting.inbox side).receiverCapability.authorizeFetch nonce validUntil
  let next : Conversation L :=
    { s with
      relay := (s.relay.fetch P request now).2
      submitted := s.submitted ++ [.fetch request now] }
  match (s.relay.fetch P request now).1 with
  | .error e => (.error e, next)
  | .ok fetched =>
      match fetched.head? with
      | none => (.error .messageNotFound, next)
      | some first => take setting next side first validUntil now

def step (s : Conversation L) : Turn P → Observation × Conversation L
  | .send side draft now => (sendMessage setting s side draft now).map .sent id
  | .receive side nonce validUntil now =>
      (receiveMessage setting s side nonce validUntil now).map .received id
  | .replay index now =>
      match s.submitted[index]? with
      | none => (.unseen, s)
      | some call => (.unseen, { s with relay := (s.relay.step P (call.resubmit now)).2 })
  | .intrude call => (.unseen, { s with relay := (s.relay.step P call).2 })

end Conversation

/-- What two users see: the messages under way to each of them. The end that did not begin
the conversation cannot send before it has received. -/
structure Channels where
  answered : Bool
  way : Side → List PlainMessage

namespace Channels

def start : Channels := ⟨false, fun _ => []⟩

/-- Whether an end can send. -/
def ready (c : Channels) : Side → Bool
  | .alice => true
  | .bob => c.answered

def step (conversationId : ConversationId) (c : Channels) : Turn P → Observation × Channels
  | .send side draft now =>
      if c.ready side then
        let message : PlainMessage :=
          { version := payloadVersion, conversationId, messageId := draft.messageId,
            sentAt := now, body := draft.body }
        (.sent (.ok .stored),
          { c with way := Function.update c.way side.peer (c.way side.peer ++ [message]) })
      else (.sent (.error .missingSession), c)
  | .receive side _ _ _ =>
      match c.way side with
      | [] => (.received (.error .messageNotFound), c)
      | message :: rest =>
          (.received (.ok message),
            { answered := c.answered || side = .bob, way := Function.update c.way side rest })
  | .replay _ _ | .intrude _ => (.unseen, c)

end Channels

end SecureMessenger
