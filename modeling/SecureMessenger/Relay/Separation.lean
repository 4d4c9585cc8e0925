import SecureMessenger.Relay.Invariant
import SecureMessenger.Capability.Authority
import SecureMessenger.Capability.Signing

/-!
# Capability separation at the relay

A run interleaves two kinds of events: a key holder signs a statement, and some
party submits a call. Nothing connects the two except that signatures cannot be
forged: a submitted request whose signature verifies under a key was signed before
by the holder of that key, as some statement with exactly those bytes. Requests
may be replayed, recombined and submitted by anyone, and keys may be registered
for several roles and several mailboxes.

Every change of a live mailbox is then traced back to a statement of the right
kind, about this very queue, signed with the key stored in the right column. Two
things carry the argument: each operation reads its own key column, and the bytes
of a statement determine its kind and all its fields.
-/

namespace SecureMessenger

variable {P : Primitives}

/-- A statement is signed, or a call is submitted. -/
inductive Event (P : Primitives)
  | sign (key : Ed25519PublicKey P) (statement : Statement)
  | call (submitted : Call P)

/-- The statement a call claims was signed, with the signature it presents. -/
def Call.presented : Call P → Option (Statement × Ed25519Signature)
  | .register request _ => some (request.statement, request.signature)
  | .enqueue request _ => some (request.statement, request.signature)
  | .fetch request _ => some (request.statement, request.signature)
  | .acknowledge request _ => some (request.statement, request.signature)
  | .deleteMailbox request _ => some (request.statement, request.signature)
  | .purgeExpired _ | .queuedMessageCountAt _ | .reopen _ => none

namespace Event

def submitted? : Event P → Option (Call P)
  | sign .. => none
  | call submitted => some submitted

def signed? : Event P → Option (Ed25519PublicKey P × Statement)
  | sign key statement => some (key, statement)
  | call _ => none

/-- The calls of a run, in order. -/
def calls (events : List (Event P)) : List (Call P) := events.filterMap submitted?

/-- What was signed in a run. -/
def ledger (events : List (Event P)) : Ledger P := events.filterMap signed?

/-- Calls present, and their signers have signed before. -/
def signing : Signing P (Event P) where
  ledger := ledger
  presented
    | sign .. => none
    | call submitted => submitted.presented
  grows before later entry member := by
    rw [ledger, List.filterMap_append]
    exact List.mem_append_left _ member

end Event

/-- The keys stored in the row of a live mailbox. -/
structure Mailbox.StoredKeys (m : Mailbox) (send receive manage : Ed25519PublicKey P) : Prop where
  live : ∃ row, m.rows = [row] ∧ row.sendKey = send.asBytes ∧ row.receiveKey = receive.asBytes ∧
    row.manageKey = manage.asBytes

/-- The key stored in a column. -/
def KeyColumn.pick (send receive manage : Ed25519PublicKey P) :
    KeyColumn → Ed25519PublicKey P
  | .sendKey => send
  | .receiveKey => receive
  | .manageKey => manage

namespace Mailbox

variable {m m' : Mailbox} {send receive manage : Ed25519PublicKey P}

theorem StoredKeys.ne_nil (stored : m.StoredKeys send receive manage) : m.rows ≠ [] := by
  obtain ⟨row, rows, _⟩ := stored.live
  rw [rows]
  exact List.cons_ne_nil _ _

/-- An authorised request was verified under the key stored in its column. -/
theorem Authorised.verified {column : KeyColumn} {message : Bytes}
    {signature : Ed25519Signature} {now : UInt64}
    (authorised : m.Authorised P column message signature now)
    (stored : m.StoredKeys send receive manage) :
    (column.pick send receive manage).verify message signature = true := by
  obtain ⟨key, hasKey, verified⟩ := authorised.signed
  obtain ⟨row, rows, sendColumn, receiveColumn, manageColumn⟩ := stored.live
  obtain ⟨row', rest, rows', read⟩ := key_eq_ok hasKey
  have same : row = row' := (List.cons.inj (rows.symm.trans rows')).1
  subst same
  have key_eq : key = column.pick send receive manage := by
    cases column with
    | sendKey => exact Ed25519PublicKey.asBytes_inj.mp (read.symm.trans sendColumn)
    | receiveKey => exact Ed25519PublicKey.asBytes_inj.mp (read.symm.trans receiveColumn)
    | manageKey => exact Ed25519PublicKey.asBytes_inj.mp (read.symm.trans manageColumn)
  rw [← key_eq]
  exact verified

/-- Every change of a live mailbox, and every release of its envelopes, goes back
to a statement of the right kind signed with the key in the right column. -/
structure Justified (ledger : Ledger P) (send receive manage : Ed25519PublicKey P) (q : QueueId)
    (m : Mailbox) (call : Call P) (reply : Reply) (m' : Mailbox) : Prop where
  entered : ∀ row ∈ m'.messages, row ∉ m.messages →
    ∃ (messageId : MessageId) (expiresAt : UInt64),
      row.messageId = messageId.toList ∧ row.expiresAt = expiresAt.toNat ∧
      (send, .send q messageId row.ciphertext expiresAt) ∈ ledger
  left : ∀ row ∈ m.messages, row ∉ m'.messages →
    row.expiresAt ≤ call.now.toNat ∨
    (∃ (messageId : MessageId) (validUntil : UInt64), row.messageId = messageId.toList ∧
      (receive, .ack q messageId (digest P row.ciphertext) validUntil) ∈ ledger) ∨
    ∃ nonce validUntil, (manage, .deleteMailbox q nonce validUntil) ∈ ledger
  released : ∀ envelopes, reply = .ok (.fetched envelopes) →
    (call.queueId? = some q ∨ ∃ envelope ∈ envelopes, envelope.queueId = q) →
    ∃ request now, call = .fetch request now ∧ request.queueId = q ∧
      (receive, .fetch q request.nonce request.validUntil) ∈ ledger
  removed : m'.rows ≠ m.rows →
    ∃ request now, call = .deleteMailbox request now ∧ request.queueId = q ∧
      (manage, .deleteMailbox q request.nonce request.validUntil) ∈ ledger

/-- Rows that a sweep drops have expired. -/
theorem expired_of_not_mem_sweep {row : MessageRow} {now : Int} (member : row ∈ m.messages)
    (gone : row ∉ (m.sweep now).messages) : row.expiresAt ≤ now := by
  by_contra later
  exact gone (mem_messages_sweep.mpr ⟨member, by omega⟩)

theorem Effect.justified {ledger : Ledger P} {q : QueueId} {call : Call P} {reply : Reply}
    (effect : Effect P m call reply m') (own : call.queueId? = some q) (sound : m.WellFormed)
    (stored : m.StoredKeys send receive manage)
    (signed : ∀ presented ∈ call.presented, ∀ key : Ed25519PublicKey P,
      key.verify (presented.1.signingBytes P) presented.2 = true → (key, presented.1) ∈ ledger) :
    Justified ledger send receive manage q m call reply m' := by
  have swept : ∀ {now : Int} {row : MessageRow}, row ∈ (m.sweep now).messages → row ∈ m.messages :=
    fun member => (mem_messages_sweep.mp member).1
  cases effect with
  | refused _ e =>
      exact ⟨fun _ new old => absurd new old, fun _ old gone => absurd old gone,
        fun _ answer => (by cases answer), fun changed => absurd rfl changed⟩
  | registered _ _ _ _ _ _ absent => exact absurd absent stored.ne_nil
  | registeredAgain request now =>
      refine ⟨?_, ?_, fun _ answer => (by cases answer), fun changed => ?_⟩
      · intro row new old
        rw [messages_noteRegistration] at new
        exact absurd (swept new) old
      · intro row old gone
        rw [messages_noteRegistration] at gone
        exact .inl (expired_of_not_mem_sweep old gone)
      · rw [rows_noteRegistration] at changed
        exact absurd rfl changed
  | stored request now _ _ authorised =>
      cases own
      refine ⟨?_, ?_, fun _ answer => (by cases answer), fun changed => absurd rfl changed⟩
      · intro row new old
        obtain kept | new := List.mem_append.mp new
        · exact absurd (swept kept) old
        · rw [List.mem_singleton.mp new]
          exact ⟨request.messageId, request.expiresAt, rfl, rfl,
            signed _ rfl send (authorised.verified stored)⟩
      · intro row old gone
        exact .inl (expired_of_not_mem_sweep old fun kept => gone (List.mem_append_left _ kept))
  | duplicate request now | alreadyDeleted request now =>
      refine ⟨fun _ new old => absurd (swept new) old, ?_, fun _ answer => (by cases answer),
        fun changed => absurd rfl changed⟩
      intro row old gone
      exact .inl (expired_of_not_mem_sweep old gone)
  | fetched request now _ authorised =>
      cases own
      refine ⟨fun _ new old => absurd (swept new) old, ?_, ?_, fun changed => absurd rfl changed⟩
      · intro row old gone
        exact .inl (expired_of_not_mem_sweep old gone)
      · intro envelopes _ _
        exact ⟨request, now, rfl, rfl, signed _ rfl receive (authorised.verified stored)⟩
  | deleted request now _ authorised target found sameDigest =>
      cases own
      refine ⟨?_, ?_, fun _ answer => (by cases answer), fun changed => absurd rfl changed⟩
      · intro row new old
        exact absurd (swept (mem_messages_bury.mp new).1) old
      · intro row old gone
        by_cases kept : row ∈ (m.sweep now.toNat).messages
        · -- The row was buried, so it is the one whose digest was compared.
          have same : row.messageId = request.messageId.toList := by
            by_contra other
            exact gone (mem_messages_bury.mpr ⟨kept, other⟩)
          have targetId : target.messageId = request.messageId.toList := by
            simpa using List.find?_some found
          have isTarget : row = target := (sound.sweep now.toNat).eq_of_messageId kept
            (List.mem_of_find?_eq_some found) (same.trans targetId.symm)
          subst isTarget
          refine .inr (.inl ⟨request.messageId, request.validUntil, same, ?_⟩)
          rw [sameDigest]
          exact signed _ rfl receive (authorised.verified stored)
        · exact .inl (expired_of_not_mem_sweep old kept)
  | mailboxDeleted request now _ authorised =>
      cases own
      have command := signed _ rfl manage (authorised.verified stored)
      exact ⟨fun _ new => (by cases new), fun _ _ _ => .inr (.inr ⟨_, _, command⟩),
        fun _ answer => (by cases answer), fun _ => ⟨request, now, rfl, rfl, command⟩⟩

/-- Every envelope is labelled with the queue it was read from. -/
theorem queueId_of_decoded {q : QueueId} {rows : List MessageRow} {envelopes : List StoredEnvelope}
    (decoded : rows.mapM (decodeEnvelope q) = .ok envelopes) :
    ∀ envelope ∈ envelopes, envelope.queueId = q := by
  intro envelope member
  obtain ⟨row, _, one⟩ := Fallible.mem_of_mapM_eq_ok decoded member
  unfold decodeEnvelope at one
  split at one
  · cases one
    rfl
  · cases one

theorem Bystander.justified {ledger : Ledger P} {q : QueueId} {call : Call P} {reply : Reply}
    {collision : Prop} (bystander : Bystander collision call.now m m')
    (quiet : ∀ envelopes, reply = .ok (.fetched envelopes) →
      ¬ (call.queueId? = some q ∨ ∃ envelope ∈ envelopes, envelope.queueId = q)) :
    Justified ledger send receive manage q m call reply m' := by
  have released : ∀ envelopes, reply = .ok (.fetched envelopes) →
      (call.queueId? = some q ∨ ∃ envelope ∈ envelopes, envelope.queueId = q) →
      ∃ request now, call = .fetch request now ∧ request.queueId = q ∧
        (receive, .fetch q request.nonce request.validUntil) ∈ ledger :=
    fun envelopes answer relevant => absurd relevant (quiet envelopes answer)
  cases bystander with
  | untouched =>
      exact ⟨fun _ new old => absurd new old, fun _ old gone => absurd old gone, released,
        fun changed => absurd rfl changed⟩
  | swept | retired =>
      exact ⟨fun _ new old => absurd (mem_messages_sweep.mp new).1 old,
        fun _ old gone => .inl (expired_of_not_mem_sweep old gone), released,
        fun changed => absurd rfl changed⟩

end Mailbox

namespace Relay

theorem map_ne_fetched {α : Type} {outcome : Except LabError α} {wrap : α → Answer}
    {envelopes : List StoredEnvelope} (never : ∀ value, wrap value ≠ .fetched envelopes) :
    outcome.map wrap ≠ .ok (.fetched envelopes) := by
  intro answer
  cases outcome with
  | error e => cases answer
  | ok value => exact never value (Except.ok.inj answer)

/-- A call addressed elsewhere releases no envelope of this queue. -/
theorem quiet_other {r : Relay} {q : QueueId} {call : Call P}
    (other : call.queueId? ≠ some q) (envelopes : List StoredEnvelope)
    (answer : (r.step P call).1 = .ok (.fetched envelopes)) :
    ¬ (call.queueId? = some q ∨ ∃ envelope ∈ envelopes, envelope.queueId = q) := by
  rintro (own | ⟨envelope, member, own⟩)
  · exact other own
  · cases addressed : call.queueId? with
    | none =>
        cases call with
        | register | enqueue | fetch | acknowledge | deleteMailbox => cases addressed
        | purgeExpired now => exact map_ne_fetched (fun _ => Answer.noConfusion) answer
        | queuedMessageCountAt now => exact map_ne_fetched (fun _ => Answer.noConfusion) answer
        | reopen now => exact map_ne_fetched (fun _ => Answer.noConfusion) answer
    | some q' =>
        have effect := r.own_effect call addressed
        rw [answer] at effect
        generalize (r.step P call).2.mailbox P q' = m' at effect
        cases effect with
        | fetched request now _ _ _ _ decoded =>
            cases addressed
            have label := Mailbox.queueId_of_decoded decoded envelope member
            exact other (congrArg some (label.symm.trans own))

end Relay

/-- Capability separation. At every step of a run with unforgeable signatures,
for every live mailbox and the keys it stores: a message enters only if the send
key signed exactly it; a message leaves before its expiry only if the receive key
signed its acknowledgement or the manage key a deletion of the mailbox; its
envelopes are released only for a fetch the receive key signed; and its row goes
only for a deletion the manage key signed. -/
theorem capability_separation (events before later : List (Event P)) (submitted : Call P)
    (split : events = before ++ .call submitted :: later)
    (unforgeable : Event.signing.Unforgeable events)
    (collisionFree : CollisionFree P (Event.signing.Packet events))
    (q : QueueId) (send receive manage : Ed25519PublicKey P)
    (stored : ((Relay.after P (Event.calls before)).mailbox P q).StoredKeys send receive manage) :
    Mailbox.Justified (Event.ledger before) send receive manage q
      ((Relay.after P (Event.calls before)).mailbox P q) submitted
      ((Relay.after P (Event.calls before)).step P submitted).1
      ((Relay.after P (Event.calls (before ++ [.call submitted]))).mailbox P q) := by
  have calls : Event.calls (before ++ [.call submitted]) = Event.calls before ++ [submitted] := by
    simp [Event.calls, Event.submitted?]
  have current := Relay.current_after (P := P) (Event.calls before)
  rw [calls, Relay.after_concat]
  obtain ⟨own, effect⟩ | ⟨other, bystander⟩ := Relay.step_view current q submitted
  · exact effect.justified own (Relay.wellFormed_after _ q) stored
      fun presented has key verified => unforgeable.signed collisionFree split has verified
  · exact bystander.justified (Relay.quiet_other other)

namespace Delivery

def owner : MailboxOwner .symbolic := .symbolic 1
def registration : MailboxRegistration .symbolic := owner.registration (.fill 16 5) 160
def sent : SendRequest := owner.senderCapability.authorize (.fill 16 9) [1, 2, 3] 1000

def before : List (Event .symbolic) :=
  [.sign owner.manage.publicKey registration.statement, .call (.register registration 100),
    .sign owner.send.publicKey sent.statement]

/-- A mailbox is registered and receives one message. -/
def events : List (Event .symbolic) := before ++ [.call (.enqueue sent 101)]

theorem unforgeable_events : Event.signing.Unforgeable events :=
  Signing.unforgeable_nil (S := Event.signing)
    |>.quiet (.sign owner.manage.publicKey registration.statement) rfl
    |>.symbolic (.call (.register registration 100)) rfl (List.mem_cons_self ..)
    |>.quiet (.sign owner.send.publicKey sent.statement) rfl
    |>.symbolic (.call (.enqueue sent 101)) rfl (List.mem_cons_of_mem _ (List.mem_cons_self ..))

theorem collisionFree_events : CollisionFree .symbolic (Event.signing.Packet events) :=
  Signing.collisionFree_of_single [1, 2, 3] (by decide +kernel) (by decide +kernel)

end Delivery

open Delivery in
theorem capability_separation_delivery :
    Mailbox.messageOf sent 1000 ∈
      ((Relay.after .symbolic (Event.calls events)).mailbox .symbolic owner.queueId).messages ∧
    ∃ (messageId : MessageId) (expiresAt : UInt64),
      (.fill 16 9 : MessageId).toList = messageId.toList ∧ (1000 : Int) = expiresAt.toNat ∧
      (owner.send.publicKey, Statement.send owner.queueId messageId [1, 2, 3] expiresAt) ∈
        Event.ledger before :=
  ⟨by decide +kernel,
    (capability_separation events before [] (.enqueue sent 101) rfl unforgeable_events
      collisionFree_events owner.queueId owner.send.publicKey owner.receive.publicKey
      owner.manage.publicKey
      ⟨⟨Mailbox.rowOf registration 100, by decide +kernel, rfl, rfl, rfl⟩⟩).entered
      (Mailbox.messageOf sent 1000) (by decide +kernel) (by decide +kernel)⟩

end SecureMessenger
