import SecureMessenger.Client.Exchange
import SecureMessenger.Relay.Accounts

/-!
# The demonstration program

`runDemo` is the main program with its clock readings and draws as arguments: two clients
set up a conversation over a new relay, one message goes each way, and in the end the relay
holds nothing. With an Olm that keeps its laws the program succeeds, whatever was drawn, as
long as the two mailboxes have different ids.
-/

namespace SecureMessenger

open Fallible Machine

variable {P : Primitives} {L : Olm P}

/-- What the program draws. -/
structure DemoDraws (L : Olm P) where
  conversationId : ConversationId
  party : Side → Party L
  session : Bytes
  firstId : MessageId
  firstSeal : Bytes
  firstFetch : Nonce
  replyId : MessageId
  replySeal : Bytes
  replyFetch : Nonce

/-- The first of the fetched envelopes. -/
def firstEnvelope (fetched : List StoredEnvelope) : Except LabError StoredEnvelope :=
  match fetched.head? with
  | some first => .ok first
  | none => .error .messageNotFound

def runDemo (draws : DemoDraws L) (now opened counted : UInt64) : Except LabError Unit := do
  let relay ← openAt none opened
  let (setting, s) ← Conversation.establish relay draws.conversationId draws.party draws.session
    (now + 60) now
  let (sealed, alice) := (s.client .alice).sealMessage draws.firstId "phase-zero-demo-message" now
    draws.firstSeal
  let (firstId, firstPacket) ← sealed
  let firstRequest := (setting.inbox .bob).senderCapability.authorize firstId firstPacket
    (now + 3600)
  let (outcome, relay) := s.relay.enqueue P firstRequest now
  let outcome ← outcome
  rejectIf (outcome ≠ .stored) .storage
  let bobReceiver := (setting.inbox .bob).receiverCapability
  let (fetched, relay) := relay.fetch P (bobReceiver.authorizeFetch draws.firstFetch (now + 60)) now
  let fetched ← fetched
  let first ← firstEnvelope fetched
  let verifiedFirst ← bobReceiver.verifyEnvelope first now
  let (received, bob) := (s.client .bob).openInitial verifiedFirst (setting.contact .alice) now
  let received ← received
  rejectIf (received.message.body ≠ "phase-zero-demo-message") .invalidPayload
  let (outcome, relay) := relay.acknowledge P (bobReceiver.authorizeAck received (now + 60)) now
  let outcome ← outcome
  rejectIf (outcome ≠ .deleted) .storage
  let (sealed, _) := bob.sealMessage draws.replyId "phase-zero-demo-reply" (now + 1)
    draws.replySeal
  let (replyId, replyPacket) ← sealed
  let replyRequest := (setting.inbox .alice).senderCapability.authorize replyId replyPacket
    (now + 3600)
  let (outcome, relay) := relay.enqueue P replyRequest (now + 1)
  let _ ← outcome
  let aliceReceiver := (setting.inbox .alice).receiverCapability
  let (replies, relay) :=
    relay.fetch P (aliceReceiver.authorizeFetch draws.replyFetch (now + 61)) (now + 1)
  let replies ← replies
  let reply ← firstEnvelope replies
  let verifiedReply ← aliceReceiver.verifyEnvelope reply (now + 1)
  let (received, _) := alice.openMessage verifiedReply (now + 1)
  let received ← received
  rejectIf (received.message.body ≠ "phase-zero-demo-reply") .invalidPayload
  let (outcome, relay) :=
    relay.acknowledge P (aliceReceiver.authorizeAck received (now + 61)) (now + 1)
  let _ ← outcome
  let (count, _) := relay.queuedMessageCountAt counted
  let count ← count
  rejectIf (count ≠ 0) .storage

/-- The end that begins has a session. -/
theorem Paired.begins {ratchet : Ratchet L} {setting : Setting P} {client : Side → OlmClient L}
    {way : Side → L.Way} (paired : Paired ratchet setting client way) :
    ∃ session, (client .alice).session = some session := by
  cases paired with
  | offered session present => exact ⟨session, present⟩
  | linked session present => exact ⟨session .alice, present .alice⟩

/-- Registrations bring no messages. -/
theorem Accounts.messages_of_registrations {now : UInt64} {calls : List (Call P)}
    (each : ∀ call ∈ calls, ∃ request, call = .register request now) :
    (Accounts.of (Relay.history P calls)).messages = [] := by
  induction calls using List.reverseRecOn with
  | nil => rfl
  | append_singleton calls call ih =>
      obtain ⟨request, rfl⟩ := each call (List.mem_append_right _ (List.mem_singleton_self _))
      have before := ih fun call member => each call (List.mem_append_left _ member)
      rw [Relay.history_concat, of_concat, enter.eq_def]
      split <;> simp_all [record, sweep]

/-- One message from an end to its peer, step by step. -/
structure Leg (setting : Setting P) (s : Conversation L) (side : Side) (draft : Draft)
    (nonce : Nonce) (validUntil now : UInt64) where
  packet : EncryptedPacket
  sender : OlmClient L
  sealed : (s.client side).sealMessage draft.messageId draft.body now draft.entropy =
    (.ok (draft.messageId, packet), sender)
  request : SendRequest
  authorized : request =
    (setting.inbox side.peer).senderCapability.authorize draft.messageId packet draft.expiresAt
  enqueued : (s.relay.enqueue P request now).1 = .ok .stored
  read : FetchRequest
  reading : read = (setting.inbox side.peer).receiverCapability.authorizeFetch nonce validUntil
  fetched : ((s.relay.enqueue P request now).2.fetch P read now).1 = .ok [request.envelope]
  verified : (setting.inbox side.peer).receiverCapability.verifyEnvelope request.envelope now =
    .ok request.verified
  received : PlainMessage
  body : received.body = draft.body
  receiver : OlmClient L
  opened : (s.client side.peer).openEnvelope (setting.contact side) request.verified now =
    (.ok ⟨received, request.verified⟩, receiver)
  ack : AckRequest
  acknowledging : ack = (setting.inbox side.peer).receiverCapability.authorizeAck
    ⟨received, request.verified⟩ validUntil
  deleted : (((s.relay.enqueue P request now).2.fetch P read now).2.acknowledge P ack now).1 =
    .ok .deleted

namespace Leg

variable {setting : Setting P} {s : Conversation L} {side : Side} {draft : Draft} {nonce : Nonce}
  {validUntil now : UInt64} (leg : Leg setting s side draft nonce validUntil now)

def calls : List (Call P) :=
  [.enqueue leg.request now, .fetch leg.read now, .acknowledge leg.ack now]

/-- The conversation after the message. -/
def done : Conversation L where
  relay := run (Relay.step P) s.relay leg.calls
  client := Function.update (Function.update s.client side leg.sender) side.peer leg.receiver
  submitted := s.submitted ++ leg.calls

theorem stores : s.relay.enqueue P ((setting.inbox side.peer).senderCapability.authorize
    draft.messageId leg.packet draft.expiresAt) now =
      (.ok .stored, (s.relay.enqueue P leg.request now).2) := by
  rw [← leg.authorized]
  exact Prod.ext leg.enqueued rfl

theorem shows : (s.relay.enqueue P leg.request now).2.fetch P
    ((setting.inbox side.peer).receiverCapability.authorizeFetch nonce validUntil) now =
      (.ok [leg.request.envelope],
        ((s.relay.enqueue P leg.request now).2.fetch P leg.read now).2) := by
  rw [← leg.reading]
  exact Prod.ext leg.fetched rfl

theorem deletes : ((s.relay.enqueue P leg.request now).2.fetch P leg.read now).2.acknowledge P
    ((setting.inbox side.peer).receiverCapability.authorizeAck
      ⟨leg.received, leg.request.verified⟩ validUntil) now = (.ok .deleted, leg.done.relay) := by
  rw [← leg.acknowledging]
  exact Prod.ext leg.deleted rfl

/-- The relay answers the calls of the two ends. -/
theorem replies : trace (Relay.step P) s.relay leg.calls =
    [(.enqueue leg.request now, .ok (.enqueued .stored)),
      (.fetch leg.read now, .ok (.fetched [leg.request.envelope])),
      (.acknowledge leg.ack now, .ok (.acknowledged .deleted))] := by
  have enqueued := congrArg (Except.map Answer.enqueued) leg.enqueued
  have fetched := congrArg (Except.map Answer.fetched) leg.fetched
  have deleted := congrArg (Except.map Answer.acknowledged) leg.deleted
  simp only [calls, trace_cons, trace_nil, Relay.step, Prod.map_fst, Prod.map_snd, id, enqueued,
    fetched, deleted]
  rfl

/-- What was sent was acknowledged. -/
theorem messages_done {accounts : Accounts} (none : accounts.messages = []) :
    ((trace (Relay.step P) s.relay leg.calls).foldl Accounts.enter accounts).messages = [] := by
  have sameQueue : leg.request.queueId = leg.ack.queueId := by
    rw [leg.acknowledging, leg.authorized]
    rfl
  have sameId : leg.request.messageId = leg.ack.messageId := by
    rw [leg.acknowledging]
    rfl
  rw [leg.replies]
  simp only [List.foldl_cons, List.foldl_nil, Accounts.enter, Accounts.record, Accounts.store,
    Accounts.sweep, Accounts.bury, none, List.filter_nil, List.nil_append]
  refine List.filter_eq_nil_iff.mpr fun sent member => ?_
  have only : sent = leg.request :=
    List.mem_singleton.mp (List.mem_of_mem_filter (List.mem_of_mem_filter member))
  simp [only, sameQueue, sameId]

end Leg

/-- A message to an end that has never received one arrives. -/
theorem Tracks.leg {setting : Setting P} {ratchet : Ratchet L} {conversationId : ConversationId}
    {horizon : Nat} {mail : Mail L} {s : Conversation L} (genuine : P.Genuine)
    (apart : ∀ side, (setting.inbox side).queueId ≠ (setting.inbox side.peer).queueId)
    (limit : horizon + 604800 < 2 ^ 63)
    (tracks : Tracks setting ratchet conversationId horizon mail s) {side : Side}
    {session : L.Session} (present : (s.client side).session = some session)
    (quiet : mail.traffic side.peer = .empty) (draft : Draft) (nonce : Nonce)
    {validUntil now : UInt64} (short : draft.body.utf8ByteSize ≤ ratchet.bodyLimit)
    (lasts : Mailbox.Timely 604800 draft.expiresAt now) (early : now.toNat < horizon)
    (lasting : horizon ≤ draft.expiresAt.toNat) (timely : Mailbox.Timely 300 validUntil now)
    (week : horizon ≤ now.toNat + 604800) :
    ∃ (leg : Leg setting s side draft nonce validUntil now) (mail' : Mail L),
      Tracks setting ratchet conversationId horizon mail' leg.done ∧
      mail'.traffic side = mail.traffic side ∧ leg.sender.session.isSome = true ∧
      leg.receiver.session.isSome = true := by
  have idle : mail.parcels side.peer = [] :=
    List.map_eq_nil_iff.mp (congrArg Traffic.queue quiet)
  have unused : nonce ∉ mail.nonces side.peer := by
    have none : mail.nonces side.peer = [] := congrArg Traffic.nonces quiet
    rw [none]
    exact List.not_mem_nil
  obtain ⟨parcel, packet, moved, plain, authorized, sealed, stored, posted⟩ := tracks.send genuine
    apart limit present draft short lasts early lasting (by rw [quiet]; exact List.not_mem_nil)
  obtain ⟨fetched, noted⟩ := posted.fetch genuine apart limit side.peer timely early unused
  have waiting : ((mail.post side.peer parcel).note side.peer nonce).parcels side.peer =
      [parcel] := by
    simp [Mail.note, Mail.post, idle]
  obtain ⟨account, moved', verified, opened, deleted, later⟩ :=
    noted.take genuine apart limit waiting timely early week
  simp only [Function.update_of_ne side.peer_ne, Side.peer_peer] at opened
  let leg : Leg setting s side draft nonce validUntil now :=
    { packet, sealed, authorized, verified, opened, deleted
      sender := _
      request := parcel.request
      enqueued := stored
      read := _
      reading := rfl
      fetched := by
        rw [fetched]
        simp [Mail.post, idle]
      received := parcel.plain
      body := by rw [plain]; rfl
      receiver := _
      ack := _
      acknowledging := rfl }
  refine ⟨leg, ((mail.post side.peer parcel).note side.peer nonce).deliver side.peer parcel [],
    ?_, ?_, rfl, rfl⟩
  · simp only [List.append_assoc, Function.update_of_ne side.peer_ne] at later
    exact later
  · rw [Mail.traffic_deliver, Mail.traffic_note, Mail.traffic_post]
    simp

/-- The two messages of the program. -/
def DemoDraws.first (draws : DemoDraws L) (now : UInt64) : Draft :=
  ⟨draws.firstId, "phase-zero-demo-message", now + 3600, draws.firstSeal⟩

def DemoDraws.reply (draws : DemoDraws L) (now : UInt64) : Draft :=
  ⟨draws.replyId, "phase-zero-demo-reply", now + 3600, draws.replySeal⟩

/-- The program follows the two messages. -/
theorem runDemo_of_legs {draws : DemoDraws L} {now opened counted : UInt64} {setting : Setting P}
    {s : Conversation L} (openedFits : opened.toNat < 2 ^ 63)
    (established : Conversation.establish Relay.empty draws.conversationId draws.party
      draws.session (now + 60) now = .ok (setting, s))
    (absent : (s.client .bob).session = none)
    (first : Leg setting s .alice (draws.first now) draws.firstFetch (now + 60) now)
    (continues : first.sender.session.isSome = true)
    (reply : Leg setting first.done .bob (draws.reply now) draws.replyFetch (now + 61) (now + 1))
    (count : (reply.done.relay.queuedMessageCountAt counted).1 = .ok 0) :
    runDemo draws now opened counted = .ok () := by
  have sealed : (s.client .alice).sealMessage draws.firstId "phase-zero-demo-message" now
      draws.firstSeal = (.ok (draws.firstId, first.packet), first.sender) := first.sealed
  have opens : (s.client .bob).openInitial first.request.verified (setting.contact .alice) now =
      (.ok ⟨first.received, first.request.verified⟩, first.receiver) := by
    have opened : (s.client .bob).openEnvelope (setting.contact .alice) first.request.verified now =
      (.ok ⟨first.received, first.request.verified⟩, first.receiver) := first.opened
    rwa [OlmClient.openEnvelope, absent] at opened
  have sealed' : first.receiver.sealMessage draws.replyId "phase-zero-demo-reply" (now + 1)
      draws.replySeal = (.ok (draws.replyId, reply.packet), reply.sender) := reply.sealed
  have opens' : first.sender.openMessage reply.request.verified (now + 1) =
      (.ok ⟨reply.received, reply.request.verified⟩, reply.receiver) := by
    have opened : first.sender.openEnvelope (setting.contact .bob) reply.request.verified
      (now + 1) = (.ok ⟨reply.received, reply.request.verified⟩, reply.receiver) := reply.opened
    obtain ⟨present, same⟩ := Option.isSome_iff_exists.mp continues
    rwa [OlmClient.openEnvelope, same] at opened
  have stores : s.relay.enqueue P ((setting.inbox .bob).senderCapability.authorize draws.firstId
      first.packet (now + 3600)) now =
        (.ok .stored, (s.relay.enqueue P first.request now).2) := first.stores
  have stores' : first.done.relay.enqueue P ((setting.inbox .alice).senderCapability.authorize
      draws.replyId reply.packet (now + 3600)) (now + 1) =
        (.ok .stored, (first.done.relay.enqueue P reply.request (now + 1)).2) := reply.stores
  have shows := first.shows
  have verified := first.verified
  have deletes := first.deletes
  have shows' := reply.shows
  have verified' := reply.verified
  have deletes' := reply.deletes
  have body : first.received.body = "phase-zero-demo-message" := first.body
  have body' : reply.received.body = "phase-zero-demo-reply" := reply.body
  have head : ∀ envelope, firstEnvelope [envelope] = .ok envelope := fun _ => rfl
  obtain ⟨last, counts⟩ : ∃ last, reply.done.relay.queuedMessageCountAt counted = (.ok 0, last) :=
    ⟨_, Prod.ext count rfl⟩
  simp only [Side.peer] at shows verified deletes shows' verified' deletes'
  simp only [runDemo, openAt_none openedFits, ok_bind, established, sealed, stores, shows, ne_eq,
    not_true_eq_false, rejectIf_of_not, not_false_eq_true, head, verified, opens, body, deletes]
  simp only [sealed', stores', shows', verified', opens', body', deletes', ok_bind, head, counts,
    not_true_eq_false, rejectIf_of_not, not_false_eq_true]

/-- The program succeeds, whatever it draws, if the two mailboxes have different ids and the
clock can be stored: both messages arrive with their text, and nothing is left queued. -/
theorem runDemo_succeeds (ratchet : Ratchet L) (genuine : P.Genuine) (draws : DemoDraws L)
    (now opened counted : UInt64)
    (apart : ∀ side, (draws.party side).inbox.queueId ≠ (draws.party side.peer).inbox.queueId)
    (limit : now.toNat + 3600 + 604800 < 2 ^ 63) (openedFits : opened.toNat < 2 ^ 63)
    (countedFits : counted.toNat < 2 ^ 63) (short : 23 ≤ ratchet.bodyLimit) :
    runDemo draws now opened counted = .ok () := by
  have add : ∀ k : UInt64, k.toNat ≤ 3600 → (now + k).toNat = now.toNat + k.toNat := by
    intro k small
    rw [UInt64.toNat_add]
    omega
  have minute : (now + 60).toNat = now.toNat + 60 := add 60 (by decide)
  have minute' : (now + 61).toNat = now.toNat + 61 := add 61 (by decide)
  have second : (now + 1).toNat = now.toNat + 1 := add 1 (by decide)
  have hour : (now + 3600).toNat = now.toNat + 3600 := add 3600 (by decide)
  have timely : Mailbox.Timely 300 (now + 60) now := ⟨by omega, by omega⟩
  have timely' : Mailbox.Timely 300 (now + 61) (now + 1) := ⟨by omega, by omega⟩
  have lasts : Mailbox.Timely 604800 (now + 3600) now := ⟨by omega, by omega⟩
  have lasts' : Mailbox.Timely 604800 (now + 3600) (now + 1) := ⟨by omega, by omega⟩
  have short' : "phase-zero-demo-reply".utf8ByteSize ≤ ratchet.bodyLimit :=
    le_trans (by decide) short
  obtain ⟨setting, s, established, inbox, absent, ⟨relay, registrations⟩, start⟩ :=
    Conversation.establish_tracks ratchet genuine Relay.current_empty draws.conversationId
      draws.party apart (fun side => Relay.sound_after [] _) (fun side => ⟨rfl, rfl⟩) draws.session
      timely (by omega)
  have distinct : ∀ side, (setting.inbox side).queueId ≠ (setting.inbox side.peer).queueId := by
    intro side
    rw [inbox, inbox]
    exact apart side
  have begun := start (now.toNat + 3600) (by omega)
  obtain ⟨session, present⟩ := begun.paired.begins
  obtain ⟨first, mail, tracks, quiet, continues, answers⟩ := begun.leg genuine distinct limit
    present rfl (draws.first now) draws.firstFetch short lasts (by omega) hour.ge timely (by omega)
  obtain ⟨session', answering⟩ := Option.isSome_iff_exists.mp answers
  have present' : (first.done.client .bob).session = some session' := answering
  obtain ⟨reply, _⟩ := tracks.leg genuine distinct limit present' quiet (draws.reply now)
    draws.replyFetch short' lasts' (by omega) hour.ge timely' (by omega)
  refine runDemo_of_legs openedFits established absent first continues reply ?_
  -- In the end nothing is queued.
  have final : reply.done.relay = Relay.after P (s.submitted ++ first.calls ++ reply.calls) := by
    rw [Relay.after, run_append, run_append, ← relay]
    rfl
  have empty : (Accounts.of (Relay.history P
      (s.submitted ++ first.calls ++ reply.calls))).messages = [] := by
    rw [Relay.history, trace_append, trace_append, Accounts.of, List.foldl_append,
      List.foldl_append, run_append, ← relay]
    exact reply.messages_done
      (first.messages_done (Accounts.messages_of_registrations registrations))
  have balances := Accounts.balances_after (P := P) (s.submitted ++ first.calls ++ reply.calls)
  rw [final, (balances.count countedFits).1, empty]
  rfl

/-- Draws of a run that can be evaluated. -/
def DemoDraws.sample : DemoDraws Olm.transparent where
  conversationId := .fill 16 9
  party := Side.pick ⟨(), .symbolic 1, [], .fill 16 1⟩ ⟨(), .symbolic 11, [], .fill 16 2⟩
  session := []
  firstId := .fill 16 3
  firstSeal := []
  firstFetch := .fill 16 4
  replyId := .fill 16 3
  replySeal := []
  replyFetch := .fill 16 4

/-- The program with symbolic keys, where the ids and nonces of the two directions agree. -/
theorem runDemo_succeeds_symbolic : runDemo DemoDraws.sample 1000 1001 2000 = .ok () :=
  runDemo_succeeds Ratchet.transparent Primitives.symbolic_genuine DemoDraws.sample 1000 1001 2000
    (by intro side; cases side <;> decide) (by decide) (by decide) (by decide) (by decide)

end SecureMessenger
