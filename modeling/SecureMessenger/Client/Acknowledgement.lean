import SecureMessenger.Client.Network

/-!
# What an acknowledgement deletes

An acknowledgement names a queue, a message id and the digest of a packet. The relay
deletes the message of that queue and id when its ciphertext has that digest, so with
ideal signatures each deletion goes back to a capability that acknowledged an opened
message with that id and that packet.

The queue is another matter. `ReceiveCapability::authorize_ack` takes the message id
and the packet from the opened envelope but writes the queue of the capability, and
unlike `verify_envelope` it does not compare the two. If one packet was queued under
one id in two mailboxes, a client that opened it from the first can acknowledge it on
the capability of the second, and the relay deletes a message that nobody has opened
from there. When every acknowledgement is made on the capability of the mailbox the
message was opened from, a deletion is always that of an opened message.
-/

namespace SecureMessenger

open Machine

variable {P : Primitives} {L : Olm P}

namespace Mailbox

variable {m m' : Mailbox} {row : MessageRow}

/-- A mailbox takes no message but the one it is asked to store. -/
theorem Effect.packet_of_mem {call : Call P} {reply : Reply} (effect : Effect P m call reply m')
    (member : row ∈ m'.messages) :
    row ∈ m.messages ∨ ∃ request now, call = .enqueue request now ∧
      row.ciphertext = request.packet := by
  cases effect with
  | refused => exact .inl member
  | registered | registeredAgain =>
      simp only [messages_noteRegistration] at member
      exact .inl (mem_messages_sweep.mp member).1
  | stored request now =>
      obtain kept | new := List.mem_append.mp member
      · exact .inl (mem_messages_sweep.mp kept).1
      · rw [List.mem_singleton.mp new]
        exact .inr ⟨request, now, rfl, rfl⟩
  | duplicate | fetched | alreadyDeleted => exact .inl (mem_messages_sweep.mp member).1
  | deleted => exact .inl (mem_messages_sweep.mp (mem_messages_bury.mp member).1).1
  | mailboxDeleted => cases member

theorem Bystander.mem_of_mem {collision : Prop} {now : UInt64}
    (bystander : Bystander collision now m m') (member : row ∈ m'.messages) :
    row ∈ m.messages := by
  cases bystander with
  | untouched => exact member
  | swept | retired => exact (mem_messages_sweep.mp member).1

/-- What the mailbox has checked when it deletes a message. -/
theorem Effect.of_deleted {request : AckRequest} {now : UInt64}
    (effect : Effect P m (.acknowledge request now) (.ok (.acknowledged .deleted)) m') :
    ∃ row ∈ m.messages, row.messageId = request.messageId.toList ∧ row ∉ m'.messages ∧
      digest P row.ciphertext = request.packetHash ∧
      ∃ key : Ed25519PublicKey P, key.verify request.signingBytes request.signature = true := by
  cases effect with
  | deleted _ _ _ authorised row found sameDigest =>
      have sameId : row.messageId = request.messageId.toList := by
        simpa using List.find?_some found
      obtain ⟨key, _, verified⟩ := authorised.signed
      refine ⟨row, (mem_messages_sweep.mp (List.mem_of_find?_eq_some found)).1, sameId, ?_,
        sameDigest, key, verified⟩
      intro kept
      exact (mem_messages_bury.mp kept).2 sameId

end Mailbox

/-- Every queued ciphertext was submitted. -/
theorem Relay.enqueue_of_queued {calls : List (Call P)} {q : QueueId} {row : MessageRow}
    (queued : row ∈ ((Relay.after P calls).mailbox P q).messages) :
    ∃ request now, .enqueue request now ∈ calls ∧ row.ciphertext = request.packet := by
  obtain ⟨call, submitted, request, now, rfl, same⟩ : ∃ call ∈ calls, ∃ request now,
      call = .enqueue request now ∧ row.ciphertext = request.packet := by
    refine brought_run Relay.Current (fun _ call current => current_step current call)
      (fun r => row ∈ (r.mailbox P q).messages) _ ?_ current_empty List.not_mem_nil queued
    intro r call current queued
    obtain ⟨_, effect⟩ | ⟨_, bystander⟩ := step_view current q call
    · exact effect.packet_of_mem queued
    · exact .inl (bystander.mem_of_mem queued)
  exact ⟨request, now, submitted, same⟩

namespace Network

variable {events before later : List (NetworkEvent L)} {opened : OpenedMessage}

/-- Whatever is queued at the relay is a packet of the run. -/
theorem packet_of_queued {q : QueueId} {row : MessageRow}
    (queued : row ∈ ((after before).relay.mailbox P q).messages) :
    signing.Packet (before ++ later) row.ciphertext := by
  rw [relay_after] at queued
  obtain ⟨request, now, member, same⟩ := Relay.enqueue_of_queued queued
  obtain ⟨event, submitted, call⟩ := List.mem_filterMap.mp member
  cases event with
  | newClient | authorize | receive | act => cases call
  | submit =>
      cases call
      exact .inr ⟨_, List.mem_append_left _ submitted, _, rfl, congrArg some same.symm⟩

/-- Whatever was opened is a packet of the run. -/
theorem packet_of_opened (held : opened ∈ (after before).opened) :
    signing.Packet (before ++ later) opened.envelope.packet := by
  rw [opened_after] at held
  obtain ⟨first, event, rest, rfl, opens⟩ := mem_collect held
  obtain ⟨client, inbound, c, rfl, _, result⟩ := receive_of_opens opens
  obtain ⟨envelope, verified, accepts⟩ := OlmClient.receive_ok result
  obtain ⟨_, _, _, rfl⟩ := ReceiveCapability.verifyEnvelope_eq_ok.mp verified
  refine .inr ⟨.receive client inbound, by simp, _, rfl, ?_⟩
  rw [accepts.carries]
  rfl

/-- What was opened stays opened. -/
theorem opened_append (held : opened ∈ (after before).opened) :
    opened ∈ (after (before ++ later)).opened := by
  rw [opened_after] at held ⊢
  rw [collect_append]
  exact List.mem_append_left _ held

/-- A signed acknowledgement was authorised for a message opened before. -/
theorem authorized_of_ack {key : Ed25519PublicKey P} {queueId : QueueId} {messageId : MessageId}
    {packetHash : FixedBytes 32} {validUntil : UInt64}
    (signed : (key, .ack queueId messageId packetHash validUntil) ∈ ledger events) :
    ∃ owner opened, .authorize (.ack owner opened validUntil) ∈ events ∧
      owner.queueId = queueId ∧ opened ∈ (after events).opened ∧
      opened.envelope.messageId = messageId ∧ digest P opened.envelope.packet = packetHash := by
  obtain ⟨before, event, later, rfl, signs⟩ := mem_ledger signed
  obtain ⟨authorization, rfl, same, held⟩ := authorization_of_signs signs (by simp [Statement.kind])
  cases authorization with
  | register | send | fetch | delete => cases same
  | ack owner opened validUntil' =>
      cases same
      exact ⟨owner, opened, List.mem_append_right _ (List.mem_cons_self ..), rfl,
        opened_append (held owner opened _ rfl), rfl, rfl⟩

/-- Whenever an acknowledgement deletes a message, some client had before opened an
envelope of that queue with that id and with the deleted ciphertext. -/
def DeletesOnlyOpened (events : List (NetworkEvent L)) : Prop :=
  ∀ before request now later, events = before ++ .submit (.acknowledge request now) :: later →
    ((after before).step (.submit (.acknowledge request now))).1 =
      .relayed (.ok (.acknowledged .deleted)) →
    ∃ row ∈ ((after before).relay.mailbox P request.queueId).messages,
      row.messageId = request.messageId.toList ∧
      row ∉ ((after (before ++ [.submit (.acknowledge request now)])).relay.mailbox P
        request.queueId).messages ∧
      ∃ opened ∈ (after before).opened, opened.envelope.queueId = request.queueId ∧
        opened.envelope.messageId = request.messageId ∧ opened.envelope.packet = row.ciphertext

end Network

open Network

/-- If every acknowledgement is made on the capability of the mailbox the message was
opened from, then an acknowledgement deletes only what was opened from that mailbox.
An acknowledgement names the queue, the id and the digest of the opened envelope
exactly when it is made on a capability of the envelope's queue. -/
theorem acknowledgement_of_own_mailbox (events : List (NetworkEvent L))
    (unforgeable : signing.Unforgeable events)
    (collisionFree : CollisionFree P (signing.Packet events))
    (own : ∀ owner opened validUntil, .authorize (.ack owner opened validUntil) ∈ events →
      owner.queueId = opened.envelope.queueId) :
    DeletesOnlyOpened events ∧
    ∀ (capability : ReceiveCapability P) (opened : OpenedMessage) (validUntil : UInt64),
      ((capability.authorizeAck opened validUntil).queueId = opened.envelope.queueId ∧
        (capability.authorizeAck opened validUntil).messageId = opened.envelope.messageId ∧
        (capability.authorizeAck opened validUntil).packetHash =
          digest P opened.envelope.packet) ↔
      capability.queueId = opened.envelope.queueId := by
  constructor
  case right =>
    intro capability opened validUntil
    exact ⟨fun named => named.1, fun same => ⟨same, rfl, rfl⟩⟩
  intro before request now later split deleted
  have reply : ((after before).relay.step P (.acknowledge request now)).1 =
      .ok (.acknowledged .deleted) := NetworkReply.relayed.inj deleted
  have effect := (after before).relay.own_effect (P := P) (.acknowledge request now) rfl
  rw [reply] at effect
  obtain ⟨row, queued, sameId, gone, sameDigest, key, verified⟩ := effect.of_deleted
  obtain ⟨owner, opened, authorized, queue, held, messageId, hash⟩ :=
    authorized_of_ack (unforgeable.signed collisionFree split rfl verified)
  refine ⟨row, queued, sameId, by rw [after_concat]; exact gone, opened, held, ?_, messageId, ?_⟩
  · rw [← own owner opened _ (split ▸ List.mem_append_left _ authorized), queue]
  · subst split
    exact collisionFree _ _ (packet_of_opened held) (packet_of_queued queued)
      (hash.trans sameDigest.symm)

namespace Crossed

def first : MailboxOwner .symbolic := .symbolic 1
def second : MailboxOwner .symbolic := .symbolic 11
def conversation : ConversationId := .fill 16 7
def messageId : MessageId := .fill 16 9
def packet : EncryptedPacket := 0 :: (conversation.toList ++ messageId.toList)
def sender : VerifiedPeerPreKey .symbolic := ⟨first.send.publicKey, .fill 32 0, .fill 32 0, 200⟩

def registration (owner : MailboxOwner .symbolic) : MailboxRegistration .symbolic :=
  owner.registration (.fill 16 5) 160

def sent (owner : MailboxOwner .symbolic) : SendRequest :=
  owner.senderCapability.authorize messageId packet 1000

/-- The message as it is opened from the first mailbox. -/
def delivered : OpenedMessage :=
  ⟨⟨1, conversation, messageId, 0, ""⟩, ⟨first.queueId, messageId, packet, 1000⟩⟩

def ack (owner : MailboxOwner .symbolic) : AckRequest :=
  owner.receiverCapability.authorizeAck delivered 200

/-- A mailbox is registered, and the packet is queued in it. -/
def queue (owner : MailboxOwner .symbolic) : List (NetworkEvent Olm.symbolic) :=
  [.authorize (.register owner (.fill 16 5) 160), .submit (.register (registration owner) 100),
    .authorize (.send owner messageId packet 1000), .submit (.enqueue (sent owner) 101)]

/-- The packet is queued in both mailboxes and opened from the first; the acknowledgement
is made on the capability of `owner`. -/
def before (owner : MailboxOwner .symbolic) : List (NetworkEvent Olm.symbolic) :=
  queue first ++ queue second ++ [.newClient () conversation,
    .receive 0 ⟨first, (sent first).envelope, 102, some sender, 102⟩,
    .authorize (.ack owner delivered 200)]

def events (owner : MailboxOwner .symbolic) : List (NetworkEvent Olm.symbolic) :=
  before owner ++ [.submit (.acknowledge (ack owner) 103)]

theorem unforgeable_before (owner : MailboxOwner .symbolic) :
    signing.Unforgeable (before owner) :=
  Signing.unforgeable_nil (S := signing (L := Olm.symbolic))
    |>.quiet (.authorize (.register first (.fill 16 5) 160)) rfl
    |>.symbolic (.submit (.register (registration first) 100)) rfl (by decide +kernel)
    |>.quiet (.authorize (.send first messageId packet 1000)) rfl
    |>.symbolic (.submit (.enqueue (sent first) 101)) rfl (by decide +kernel)
    |>.quiet (.authorize (.register second (.fill 16 5) 160)) rfl
    |>.symbolic (.submit (.register (registration second) 100)) rfl (by decide +kernel)
    |>.quiet (.authorize (.send second messageId packet 1000)) rfl
    |>.symbolic (.submit (.enqueue (sent second) 101)) rfl (by decide +kernel)
    |>.quiet (.newClient () conversation) rfl
    |>.symbolic (.receive 0 ⟨first, (sent first).envelope, 102, some sender, 102⟩) rfl
      (by decide +kernel)
    |>.quiet (.authorize (.ack owner delivered 200)) rfl

end Crossed

open Crossed in
theorem acknowledgement_of_own_mailbox_delivered :
    ((after (before first)).step (.submit (.acknowledge (ack first) 103))).1 =
      .relayed (.ok (.acknowledged .deleted)) ∧
    DeletesOnlyOpened (events first) := by
  refine ⟨by decide +kernel, (acknowledgement_of_own_mailbox (events first) ?_ ?_ ?_).1⟩
  · exact (unforgeable_before first).symbolic _ rfl (by decide +kernel)
  · exact Signing.collisionFree_of_single packet (by decide +kernel) (by decide +kernel)
  · intro owner opened validUntil authorized
    simp only [events, before, queue, List.cons_append, List.nil_append, List.mem_cons,
      NetworkEvent.authorize.injEq, reduceCtorEq, Authorization.ack.injEq, List.not_mem_nil,
      or_self, or_false, false_or] at authorized
    obtain ⟨rfl, rfl, rfl⟩ := authorized
    rfl

open Crossed in
/-- The packet was opened from the first mailbox and acknowledged on the capability of
the second, from which nobody has opened anything; the relay deletes it there. -/
theorem acknowledgement_crosses_mailboxes :
    signing.Unforgeable (events second) ∧
    CollisionFree .symbolic (signing.Packet (events second)) ∧
    (second.receiverCapability.authorizeAck delivered 200).queueId ≠ delivered.envelope.queueId ∧
    ¬ DeletesOnlyOpened (events second) := by
  refine ⟨?_, ?_, by decide +kernel, ?_⟩
  · exact (unforgeable_before second).symbolic _ rfl (by decide +kernel)
  · exact Signing.collisionFree_of_single packet (by decide +kernel) (by decide +kernel)
  · intro only
    obtain ⟨_, _, _, _, opened, held, queue, _⟩ :=
      only (before second) (ack second) 103 [] rfl (by decide +kernel)
    have all : (after (before second)).opened = [delivered] := by decide +kernel
    rw [all, List.mem_singleton] at held
    subst held
    exact absurd queue (by decide +kernel)

end SecureMessenger
