import SecureMessenger.Client.Network

/-!
# Recipient safety against a malicious relay

A client is handed arbitrary envelopes in any order and number. It opens one only
after a receive capability has verified the sender's signature, and it checks the
expiry again when it opens. The signing bytes of an envelope determine all its
fields, so queue, message, packet and expiry were signed together.

The ids a client has opened stay in its displayed set, whatever it is handed or does
in between; both ways of opening refuse an id of that set and add the one they open.
-/

namespace SecureMessenger

open Machine

variable {P : Primitives} {L : Olm P}

namespace Network

/-- The message that one client opens at an event. -/
def opensBy (client : Nat) (s : Network L) (event : NetworkEvent L) : Option OpenedMessage :=
  match event with
  | .receive id inbound => if id = client then s.opens (.receive id inbound) else none
  | _ => none

/-- The messages a client opened in a run, in order. -/
def openings (client : Nat) (events : List (NetworkEvent L)) : List OpenedMessage :=
  collect step (opensBy client) initial events

variable {s : Network L} {client : Nat} {inbound : Inbound P} {opened : OpenedMessage}
variable {c : OlmClient L}

theorem opensBy_eq_some {event : NetworkEvent L} (opens : s.opensBy client event = some opened) :
    ∃ inbound c, event = .receive client inbound ∧ s.clients[client]? = some c ∧
      (c.receive inbound).1 = .ok opened := by
  cases event with
  | newClient | authorize | act | submit => cases opens
  | receive id inbound =>
      simp only [opensBy] at opens
      split at opens
      · next own =>
        subst own
        obtain ⟨c, present, result⟩ := opens_receive opens
        exact ⟨inbound, c, rfl, present, result⟩
      · cases opens

/-- A client keeps what it has displayed, and opens only what it has not. -/
theorem displayed_step (present : s.clients[client]? = some c) (event : NetworkEvent L) :
    ∃ c', (s.step event).2.clients[client]? = some c' ∧
      c.displayedMessages ⊆ c'.displayedMessages ∧
      ∀ opened, s.opensBy client event = some opened →
        opened.message.messageId ∈ c'.displayedMessages ∧
        opened.message.messageId ∉ c.displayedMessages := by
  have inside := (List.getElem?_eq_some_iff.mp present).1
  cases event with
  | authorize | submit => exact ⟨c, present, Finset.Subset.refl _, by simp [opensBy]⟩
  | newClient account conversationId =>
      refine ⟨c, ?_, Finset.Subset.refl _, by simp [opensBy]⟩
      exact (List.getElem?_append_left inside).trans present
  | act id call =>
      simp only [opensBy, step, Network.act, reduceCtorEq, false_implies, implies_true, and_true]
      by_cases own : id = client
      · subst own
        simp only [present, List.getElem?_set_self inside, Option.some.injEq, exists_eq_left']
        rw [(c.act_frame call).2]
      · refine ⟨c, ?_, Finset.Subset.refl _⟩
        split
        · exact present
        · exact (List.getElem?_set_ne own).trans present
  | receive id inbound =>
      by_cases own : id = client
      · subst own
        rw [(receive_eq present inbound).2, List.getElem?_set_self inside]
        refine ⟨_, rfl, ?_⟩
        simp only [opensBy, if_true]
        cases result : (c.receive inbound).1 with
        | error e =>
            rw [OlmClient.receive_error result]
            refine ⟨Finset.Subset.refl _, ?_⟩
            intro opened opens
            obtain ⟨c', present', result'⟩ := opens_receive opens
            obtain rfl := Option.some.inj (present.symm.trans present')
            exact absurd (result.symm.trans result') (by simp)
        | ok opened =>
            obtain ⟨envelope, _, accepts⟩ := OlmClient.receive_ok result
            rw [accepts.displayed]
            refine ⟨Finset.subset_insert _ _, ?_⟩
            intro opened' opens
            obtain ⟨c', present', result'⟩ := opens_receive opens
            obtain rfl := Option.some.inj (present.symm.trans present')
            obtain rfl := Except.ok.inj (result.symm.trans result')
            exact ⟨Finset.mem_insert_self _ _, accepts.fresh⟩
      · simp only [opensBy, own, if_false, reduceCtorEq, false_implies, implies_true, and_true]
        refine ⟨c, ?_, Finset.Subset.refl _⟩
        cases other : s.clients[id]? with
        | none =>
            simp only [step, Network.receive, other]
            exact present
        | some c' =>
            rw [(receive_eq other inbound).2]
            exact (List.getElem?_set_ne own).trans present

/-- Every message a client has opened is displayed, and no id was opened twice. -/
structure Remembers (client : Nat) (s : Network L) (openings : List OpenedMessage) : Prop where
  displayed : ∀ opened ∈ openings, ∃ c, s.clients[client]? = some c ∧
    opened.message.messageId ∈ c.displayedMessages
  distinct : (openings.map fun opened => opened.message.messageId).Nodup

theorem Remembers.step {openings : List OpenedMessage} (remembers : s.Remembers client openings)
    (event : NetworkEvent L) :
    (s.step event).2.Remembers client (openings ++ (s.opensBy client event).toList) := by
  have kept : ∀ opened ∈ openings, ∃ c, (s.step event).2.clients[client]? = some c ∧
      opened.message.messageId ∈ c.displayedMessages := by
    intro opened member
    obtain ⟨c, present, displayed⟩ := remembers.displayed opened member
    obtain ⟨c', present', more, _⟩ := displayed_step present event
    exact ⟨c', present', more displayed⟩
  cases opens : s.opensBy client event with
  | none =>
      rw [Option.toList_none, List.append_nil]
      exact ⟨kept, remembers.distinct⟩
  | some opened =>
      obtain ⟨_, c, _, present, _⟩ := opensBy_eq_some opens
      obtain ⟨c', present', _, fresh⟩ := displayed_step present event
      obtain ⟨now, before⟩ := fresh opened opens
      rw [Option.toList_some]
      refine ⟨?_, ?_⟩
      · intro opened' member
        obtain old | new := List.mem_append.mp member
        · exact kept opened' old
        · obtain rfl := List.mem_singleton.mp new
          exact ⟨c', present', now⟩
      · rw [List.map_append, List.map_singleton, List.nodup_append]
        refine ⟨remembers.distinct, List.nodup_singleton _, ?_⟩
        intro id listed id' single same
        obtain rfl := List.mem_singleton.mp single
        obtain ⟨opened', member, rfl⟩ := List.mem_map.mp listed
        obtain ⟨c'', present'', displayed⟩ := remembers.displayed opened' member
        obtain rfl := Option.some.inj (present.symm.trans present'')
        exact before (same ▸ displayed)

theorem remembers_after (client : Nat) (events : List (NetworkEvent L)) :
    (after events).Remembers client (openings client events) := by
  induction events using List.reverseRecOn with
  | nil => exact ⟨by simp [openings, collect], by simp [openings, collect]⟩
  | append_singleton events event ih =>
      rw [after_concat, openings, collect_concat]
      exact ih.step event

/-- A send statement of the ledger was signed by an authorisation to send. -/
theorem authorized_of_send {events : List (NetworkEvent L)} {key : Ed25519PublicKey P}
    {queueId : QueueId} {messageId : MessageId} {packet : EncryptedPacket} {expiresAt : UInt64}
    (signed : (key, .send queueId messageId packet expiresAt) ∈ ledger events) :
    ∃ owner, .authorize (.send owner messageId packet expiresAt) ∈ events ∧
      owner.queueId = queueId ∧ owner.send.publicKey = key := by
  obtain ⟨before, event, later, rfl, signs⟩ := mem_ledger signed
  obtain ⟨authorization, rfl, same, _⟩ := authorization_of_signs signs (by simp [Statement.kind])
  cases authorization with
  | register | fetch | ack | delete => cases same
  | send owner messageId' packet' expiresAt' =>
      cases same
      exact ⟨owner, List.mem_append_right _ (List.mem_cons_self ..), rfl, rfl⟩

end Network

open Network

/-- Recipient safety. Whatever envelopes a client is handed, each message it opens
came in an envelope whose queue, message id, packet and expiry were signed together
in one authorisation to send, with the send key of that queue; the envelope had not
expired when it was opened; the id inside is the id outside, and the conversation is
the client's own. No two messages that a client opens in a run have the same id. -/
theorem recipient_safety (events : List (NetworkEvent L))
    (unforgeable : signing.Unforgeable events)
    (collisionFree : CollisionFree P (signing.Packet events)) (client : Nat) :
    (∀ before inbound later opened, events = before ++ .receive client inbound :: later →
      (after before).opensBy client (.receive client inbound) = some opened →
        opened.envelope.queueId = inbound.owner.queueId ∧
        (∃ owner, .authorize (.send owner opened.envelope.messageId opened.envelope.packet
            opened.envelope.expiresAt) ∈ before ∧
          owner.queueId = opened.envelope.queueId ∧
          owner.send.publicKey = inbound.owner.send.publicKey) ∧
        inbound.now < opened.envelope.expiresAt ∧
        opened.message.messageId = opened.envelope.messageId ∧
        ∃ c, (after before).clients[client]? = some c ∧
          opened.message.conversationId = c.conversationId) ∧
    ((openings client events).map fun opened => opened.message.messageId).Nodup := by
  refine ⟨?_, (remembers_after client events).distinct⟩
  intro before inbound later opened split opens
  obtain ⟨_, c, same, present, result⟩ := opensBy_eq_some opens
  cases same
  obtain ⟨envelope, verified, accepts⟩ := OlmClient.receive_ok result
  obtain ⟨own, _, signature, rfl⟩ := ReceiveCapability.verifyEnvelope_eq_ok.mp verified
  have signed := unforgeable.signed collisionFree split rfl signature
  rw [accepts.carries]
  exact ⟨own, authorized_of_send signed, accepts.unexpired, accepts.messageId, c, present,
    accepts.conversationId⟩

namespace Redelivery

def owner : MailboxOwner .symbolic := .symbolic 1
def conversation : ConversationId := .fill 16 7
def messageId : MessageId := .fill 16 9
def packet : EncryptedPacket := 0 :: (conversation.toList ++ messageId.toList)
def sent : SendRequest := owner.senderCapability.authorize messageId packet 1000
def sender : VerifiedPeerPreKey .symbolic := ⟨owner.send.publicKey, .fill 32 0, .fill 32 0, 200⟩

def first : Inbound .symbolic := ⟨owner, sent.envelope, 102, some sender, 103⟩
def again : Inbound .symbolic := ⟨owner, sent.envelope, 102, none, 104⟩

/-- One message is handed over twice, and a third time after it has expired. -/
def events : List (NetworkEvent Olm.symbolic) :=
  [.newClient () conversation, .authorize (.send owner messageId packet 1000),
    .receive 0 first, .receive 0 again, .receive 0 { again with now := 1000 }]

theorem unforgeable_events : signing.Unforgeable events :=
  Signing.unforgeable_nil (S := signing (L := Olm.symbolic))
    |>.quiet (.newClient () conversation) rfl
    |>.quiet (.authorize (.send owner messageId packet 1000)) rfl
    |>.symbolic (.receive 0 first) rfl (by decide +kernel)
    |>.symbolic (.receive 0 again) rfl (by decide +kernel)
    |>.symbolic (.receive 0 { again with now := 1000 }) rfl (by decide +kernel)

theorem collisionFree_events : CollisionFree .symbolic (signing.Packet events) :=
  Signing.collisionFree_of_single packet (by decide +kernel) (by decide +kernel)

end Redelivery

open Redelivery in
theorem recipient_safety_redelivery :
    ((trace Network.step initial events).map Prod.snd).drop 2 =
      [.received (.ok
          ⟨⟨1, conversation, messageId, 0, ""⟩, ⟨owner.queueId, messageId, packet, 1000⟩⟩),
        .received (.error .duplicateMessage), .received (.error .unauthorized)] ∧
    ((openings 0 events).map fun opened => opened.message.messageId).Nodup :=
  ⟨by decide +kernel, (recipient_safety events unforgeable_events collisionFree_events 0).2⟩

end SecureMessenger
