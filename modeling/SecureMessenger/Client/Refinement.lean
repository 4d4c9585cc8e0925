import SecureMessenger.Client.Conversation

/-!
# The conversation refines two queues

`Tracks` relates the relay, the clients and the submitted requests to the parcels that are
under way to each end. A parcel is one message in all its forms: the plain message, its
encoding, the packet of the ratchet and the send request. The mailbox of an end holds the
requests of its parcels, the ratchet has their packets under way, and the user is still to
see their messages. Every turn keeps this relation and is observed as the two queues say.
-/

namespace SecureMessenger

open Fallible Machine

variable {P : Primitives} {L : Olm P}

/-- How the sessions of the two clients belong together, with the packets under way to
each end. -/
inductive Paired (ratchet : Ratchet L) (setting : Setting P) (client : Side → OlmClient L)
    (way : Side → L.Way) : Prop
  | offered (session : L.Session) (present : (client .alice).session = some session)
      (absent : (client .bob).session = none)
      (offer : ratchet.Offered (client .bob).account (setting.contact .alice).curveIdentity
        session (way .bob))
      (quiet : way .alice = [])
  | linked (session : Side → L.Session)
      (present : ∀ side, (client side).session = some (session side))
      (link : ∀ side, ratchet.Linked (session side) (session side.peer) (way side.peer)
        (way side))

namespace Paired

variable {ratchet : Ratchet L} {setting : Setting P} {client : Side → OlmClient L}
  {way : Side → L.Way}

/-- Sessions that are linked seen from one end are linked seen from the other. -/
theorem of_link (session : Side → L.Session) (side : Side)
    (present : ∀ side, (client side).session = some (session side))
    (link : ratchet.Linked (session side) (session side.peer) (way side.peer) (way side)) :
    Paired ratchet setting client way := by
  refine .linked session present fun other => ?_
  obtain rfl | rfl := side.eq_or_peer other
  · exact link
  · rw [Side.peer_peer]
    exact ratchet.symm link

/-- An end with a session encrypts, and the packet is under way to its peer. -/
theorem encrypts (paired : Paired ratchet setting client way) {side : Side}
    {session : L.Session} (present : (client side).session = some session)
    (plaintext entropy : Bytes) :
    ∃ message next, L.encrypt session plaintext entropy = (some message, next) ∧
      Paired ratchet setting
        (Function.update client side { client side with session := some next })
        (Function.update way side.peer (way side.peer ++ [(message, plaintext)])) := by
  cases paired with
  | offered session' own absent offer quiet =>
      cases side with
      | bob =>
          rw [absent] at present
          cases present
      | alice =>
          obtain rfl : session' = session := Option.some.inj (own.symm.trans present)
          obtain ⟨message, next, encrypted, offer⟩ := ratchet.encryptsOffer offer plaintext entropy
          exact ⟨message, next, encrypted, .offered next rfl absent offer quiet⟩
  | linked sessions own link =>
      obtain rfl : sessions side = session := Option.some.inj ((own side).symm.trans present)
      obtain ⟨message, next, encrypted, linked⟩ := ratchet.encrypts (link side) plaintext entropy
      refine ⟨message, next, encrypted, of_link (Function.update sessions side next)
        side ?_ ?_⟩
      · intro other
        obtain rfl | rfl := side.eq_or_peer other
        · simp
        · simp [own]
      · simpa using linked

/-- The packet that has been under way longest is opened by the end it is for. -/
theorem opens (paired : Paired ratchet setting client way) {side : Side} {message : L.Message}
    {bytes : Bytes} {rest : L.Way} (first : way side = (message, bytes) :: rest)
    {envelope : VerifiedEnvelope} {now : UInt64} {plain : PlainMessage}
    (unexpired : now < envelope.expiresAt)
    (decoded : L.decodeMessage envelope.packet = some message)
    (valid : (client side).validatePlaintext bytes envelope.messageId = .ok plain) :
    ∃ account session,
      (client side).openEnvelope (setting.contact side.peer) envelope now =
        (.ok ⟨plain, envelope⟩, (client side).showing account session plain.messageId) ∧
      Paired ratchet setting
        (Function.update client side ((client side).showing account session plain.messageId))
        (Function.update way side rest) := by
  cases paired with
  | offered session own absent offer quiet =>
      cases side with
      | alice =>
          rw [quiet] at first
          cases first
      | bob =>
          rw [first] at offer
          obtain ⟨preKey, inbound, account, rfl, created, link⟩ := ratchet.accepts offer
          refine ⟨account, inbound, ?_, ?_⟩
          · rw [OlmClient.openEnvelope, absent]
            exact OlmClient.openInitial_of_offer absent unexpired decoded (ratchet.pickled _)
              created valid
          · refine of_link (Side.pick session inbound) .alice ?_ ?_
            · intro other
              cases other with
              | alice => exact own
              | bob => rfl
            · have empty : Function.update way .bob rest .alice = [] := quiet
              change ratchet.Linked session inbound (Function.update way .bob rest .bob)
                (Function.update way .bob rest .alice)
              rw [empty, Function.update_self]
              exact link
  | linked sessions own link =>
      have back := link side.peer
      rw [Side.peer_peer, first] at back
      obtain ⟨next, decrypted, linked⟩ := ratchet.decrypts back
      refine ⟨(client side).account, next, ?_, ?_⟩
      · rw [OlmClient.openEnvelope, own side]
        exact OlmClient.openMessage_of_session (own side) unexpired decoded
          (ratchet.sessionPickled _) decrypted valid
      · refine of_link (Function.update sessions side next) side.peer ?_ ?_
        · intro other
          obtain rfl | rfl := side.eq_or_peer other
          · simp [OlmClient.showing]
          · simp [own]
        · simpa using linked

end Paired

theorem Call.queueId?_resubmit (call : Call P) (now : UInt64) :
    (call.resubmit now).queueId? = call.queueId? := by
  cases call <;> rfl

theorem Call.clock_resubmit (call : Call P) (now : UInt64) :
    (call.resubmit now).clock = now.toNat := by
  cases call <;> rfl

/-- The time of a request does not matter. -/
theorem Call.Harmless.resubmit {owner : MailboxOwner P} {traffic : Traffic} {call : Call P}
    (harmless : call.Harmless owner traffic) (now : UInt64) :
    (call.resubmit now).Harmless owner traffic := by
  cases call <;> exact harmless

/-- Everything that was used stays used. -/
structure Traffic.Within (traffic later : Traffic) : Prop where
  ids : traffic.ids ⊆ later.ids
  past : traffic.past ⊆ later.past
  nonces : traffic.nonces ⊆ later.nonces

theorem Call.Harmless.mono {owner : MailboxOwner P} {traffic later : Traffic} {call : Call P}
    (harmless : call.Harmless owner traffic) (within : traffic.Within later) :
    call.Harmless owner later := by
  cases call with
  | register | purgeExpired | queuedMessageCountAt | reopen => trivial
  | enqueue => exact fun signed => within.ids (harmless signed)
  | fetch => exact fun signed => within.nonces (harmless signed)
  | acknowledge => exact fun signed => within.past (harmless signed)
  | deleteMailbox => exact harmless

/-- A call that harms none of the two mailboxes. -/
def Setting.Spares (setting : Setting P) (traffic : Side → Traffic) (call : Call P) : Prop :=
  ∀ side, call.queueId? = some (setting.inbox side).queueId →
    call.Harmless (setting.inbox side) (traffic side)

/-- The relay holds the traffic of both ends, and what was submitted to it cannot harm when
it is submitted again. -/
structure Hosting (setting : Setting P) (horizon : Nat) (traffic : Side → Traffic)
    (relay : Relay) (submitted : List (Call P)) : Prop where
  current : relay.Current
  holds : ∀ side, (relay.mailbox P (setting.inbox side).queueId).Holds (setting.inbox side)
    horizon (traffic side)
  spares : ∀ call ∈ submitted, setting.Spares traffic call

namespace Hosting

variable {setting : Setting P} {horizon : Nat} {traffic : Side → Traffic} {relay : Relay}
  {submitted : List (Call P)}

/-- Somebody submits a call that harms neither mailbox. -/
theorem intrude (hosting : Hosting setting horizon traffic relay submitted) {call : Call P}
    (spares : setting.Spares traffic call) (early : call.clock < horizon) :
    Hosting setting horizon traffic (relay.step P call).2 submitted where
  current := Relay.current_step hosting.current call
  holds side := by
    obtain ⟨own, effect⟩ | ⟨_, bystander⟩ :=
      Relay.step_view hosting.current (setting.inbox side).queueId call
    · exact (hosting.holds side).keeps (spares side own) early effect
    · exact (hosting.holds side).stands early bystander
  spares := hosting.spares

/-- An end submits a call to one of the mailboxes, and its traffic changes. -/
theorem submit (hosting : Hosting setting horizon traffic relay submitted)
    (apart : ∀ side, (setting.inbox side).queueId ≠ (setting.inbox side.peer).queueId)
    {side : Side} {call : Call P} {later : Traffic}
    (own : call.queueId? = some (setting.inbox side).queueId) (early : call.clock < horizon)
    (holds : ((relay.mailbox P (setting.inbox side).queueId).step P call).2.Holds
      (setting.inbox side) horizon later)
    (within : (traffic side).Within later) (harmless : call.Harmless (setting.inbox side) later) :
    Hosting setting horizon (Function.update traffic side later) (relay.step P call).2
      (submitted ++ [call]) where
  current := Relay.current_step hosting.current call
  holds other := by
    obtain rfl | rfl := side.eq_or_peer other
    · rw [Function.update_self, (relay.step_own own).2]
      exact holds
    · have foreign : call.queueId? ≠ some (setting.inbox side.peer).queueId := by
        rw [own]
        exact fun same => apart side (Option.some.inj same)
      rw [Function.update_of_ne side.peer_ne]
      exact (hosting.holds side.peer).stands early (Relay.step_other hosting.current foreign)
  spares earlier member other addressed := by
    obtain rfl | rfl := side.eq_or_peer other
    · rw [Function.update_self]
      obtain old | new := List.mem_append.mp member
      · exact (hosting.spares earlier old _ addressed).mono within
      · rw [List.mem_singleton.mp new]
        exact harmless
    · rw [Function.update_of_ne side.peer_ne]
      obtain old | new := List.mem_append.mp member
      · exact hosting.spares earlier old side.peer addressed
      · rw [List.mem_singleton.mp new, own] at addressed
        exact absurd (Option.some.inj addressed) (apart side)

section Honest

variable (genuine : P.Genuine)
  (apart : ∀ side, (setting.inbox side).queueId ≠ (setting.inbox side.peer).queueId)
include genuine apart

/-- A message for an end is stored. -/
theorem send (hosting : Hosting setting horizon traffic relay submitted) (side : Side)
    {messageId : MessageId} {packet : EncryptedPacket} {expiresAt now : UInt64}
    (size : packet ≠ [] ∧ packet.length ≤ maxPacketBytes)
    (timely : Mailbox.Timely 604800 expiresAt now) (early : now.toNat < horizon)
    (lasting : horizon ≤ expiresAt.toNat) (limit : horizon + 604800 < 2 ^ 63)
    (fresh : messageId ∉ (traffic side).ids) :
    let request := (setting.inbox side).senderCapability.authorize messageId packet expiresAt
    (relay.enqueue P request now).1 = .ok .stored ∧
      Hosting setting horizon
        (Function.update traffic side
          { traffic side with queue := (traffic side).queue ++ [request] })
        (relay.enqueue P request now).2 (submitted ++ [.enqueue request now]) := by
  intro request
  have own : (Call.enqueue request now : Call P).queueId? = some (setting.inbox side).queueId := rfl
  have fits : expiresAt.toNat < 2 ^ 63 := by
    have near := timely.near
    omega
  obtain ⟨reply, holds⟩ := (hosting.holds side).send (Option.some.inj own)
    (genuine (setting.inbox side).send (request.signingBytes P)) size timely fits early lasting
    fresh
  refine ⟨eq_ok_of_map Answer.enqueued.inj ((relay.step_own own).1.trans reply), ?_⟩
  refine hosting.submit apart own early holds ⟨?_, List.Subset.refl _, List.Subset.refl _⟩ ?_
  · simp [Traffic.ids]
  · intro _
    simp [Traffic.ids]

/-- An end sees everything that is queued for it. -/
theorem fetch (hosting : Hosting setting horizon traffic relay submitted) (side : Side)
    {nonce : Nonce} {validUntil now : UInt64} (timely : Mailbox.Timely 300 validUntil now)
    (early : now.toNat < horizon) (limit : horizon + 604800 < 2 ^ 63)
    (fresh : nonce ∉ (traffic side).nonces) :
    let request := (setting.inbox side).receiverCapability.authorizeFetch nonce validUntil
    (relay.fetch P request now).1 = .ok ((traffic side).queue.map SendRequest.envelope) ∧
      Hosting setting horizon
        (Function.update traffic side
          { traffic side with nonces := (traffic side).nonces ++ [nonce] })
        (relay.fetch P request now).2 (submitted ++ [.fetch request now]) := by
  intro request
  have own : (Call.fetch request now : Call P).queueId? = some (setting.inbox side).queueId := rfl
  have fits : validUntil.toNat < 2 ^ 63 := by
    have near := timely.near
    omega
  obtain ⟨reply, holds⟩ := (hosting.holds side).fetch (Option.some.inj own)
    (genuine (setting.inbox side).receive request.signingBytes) timely fits early fresh
  refine ⟨eq_ok_of_map Answer.fetched.inj ((relay.step_own own).1.trans reply), ?_⟩
  refine hosting.submit apart own early holds ⟨List.Subset.refl _, List.Subset.refl _, ?_⟩ ?_
  · simp
  · intro _
    simp [request, ReceiveCapability.authorizeFetch]

/-- An end acknowledges the first message that is queued for it. -/
theorem acknowledge (hosting : Hosting setting horizon traffic relay submitted) (side : Side)
    {first : SendRequest} {rest : List SendRequest} (head : (traffic side).queue = first :: rest)
    (opened : OpenedMessage) (sameId : opened.envelope.messageId = first.messageId)
    (samePacket : opened.envelope.packet = first.packet) {validUntil now : UInt64}
    (timely : Mailbox.Timely 300 validUntil now) (early : now.toNat < horizon)
    (week : horizon ≤ now.toNat + 604800) (limit : horizon + 604800 < 2 ^ 63) :
    let request := (setting.inbox side).receiverCapability.authorizeAck opened validUntil
    (relay.acknowledge P request now).1 = .ok .deleted ∧
      Hosting setting horizon
        (Function.update traffic side
          { traffic side with queue := rest, past := (traffic side).past ++ [first.messageId] })
        (relay.acknowledge P request now).2 (submitted ++ [.acknowledge request now]) := by
  intro request
  have own : (Call.acknowledge request now : Call P).queueId? =
      some (setting.inbox side).queueId := rfl
  have packetHash : request.packetHash = digest P first.packet := congrArg (digest P) samePacket
  obtain ⟨reply, holds⟩ := (hosting.holds side).acknowledge head
    (genuine (setting.inbox side).receive request.signingBytes) sameId packetHash timely early week
    (by omega)
  refine ⟨eq_ok_of_map Answer.acknowledged.inj ((relay.step_own own).1.trans reply), ?_⟩
  refine hosting.submit apart own early holds ⟨?_, by simp, List.Subset.refl _⟩ ?_
  · intro messageId member
    simp only [Traffic.ids, head, List.map_cons, List.mem_append, List.mem_cons] at member ⊢
    tauto
  · intro _
    have acknowledged : request.messageId = first.messageId := sameId
    simp [acknowledged]

end Honest

end Hosting

/-- What the recipient has of a request after verification. -/
def SendRequest.verified (request : SendRequest) : VerifiedEnvelope where
  queueId := request.queueId
  messageId := request.messageId
  packet := request.packet
  expiresAt := request.expiresAt

/-- One message in all its forms. -/
structure Parcel (L : Olm P) where
  plain : PlainMessage
  bytes : Bytes
  message : L.Message
  request : SendRequest

/-- The forms belong together, and the request is for this mailbox. -/
structure Parcel.Fits (owner : MailboxOwner P) (conversationId : ConversationId)
    (parcel : Parcel L) : Prop where
  version : parcel.plain.version = payloadVersion
  conversation : parcel.plain.conversationId = conversationId
  encoded : L.encodePlain parcel.plain = some parcel.bytes
  packed : L.encodeMessage parcel.message = some parcel.request.packet
  sameId : parcel.plain.messageId = parcel.request.messageId
  signed : owner.send.publicKey.verify (parcel.request.signingBytes P) parcel.request.signature =
    true

/-- What is under way, and what has been, between the two ends. -/
structure Mail (L : Olm P) where
  parcels : Side → List (Parcel L)
  past : Side → List MessageId
  nonces : Side → List Nonce

namespace Mail

variable (mail : Mail L) (side : Side)

/-- The traffic of one mailbox. -/
def traffic : Traffic where
  queue := (mail.parcels side).map Parcel.request
  past := mail.past side
  nonces := mail.nonces side

/-- The packets under way to one end. -/
def way : L.Way := (mail.parcels side).map fun parcel => (parcel.message, parcel.bytes)

/-- What the users see of it. -/
def channels (answered : Bool) : Channels where
  answered := answered
  way side := (mail.parcels side).map Parcel.plain

def post (parcel : Parcel L) : Mail L :=
  { mail with parcels := Function.update mail.parcels side (mail.parcels side ++ [parcel]) }

def note (nonce : Nonce) : Mail L :=
  { mail with nonces := Function.update mail.nonces side (mail.nonces side ++ [nonce]) }

/-- The first parcel has arrived. -/
def deliver (first : Parcel L) (rest : List (Parcel L)) : Mail L :=
  { mail with
    parcels := Function.update mail.parcels side rest
    past := Function.update mail.past side (mail.past side ++ [first.request.messageId]) }

theorem mem_post {parcel listed : Parcel L} {other : Side}
    (member : listed ∈ (mail.post side parcel).parcels other) :
    listed ∈ mail.parcels other ∨ other = side ∧ listed = parcel := by
  obtain rfl | rfl := side.eq_or_peer other
  · simpa [post] using member
  · exact .inl (by simpa [post] using member)

theorem mem_deliver {first listed : Parcel L} {rest : List (Parcel L)} {other : Side}
    (head : mail.parcels side = first :: rest)
    (member : listed ∈ (mail.deliver side first rest).parcels other) :
    listed ∈ mail.parcels other := by
  obtain rfl | rfl := side.eq_or_peer other
  · rw [head]
    exact List.mem_cons_of_mem _ (by simpa [deliver] using member)
  · simpa [deliver] using member

theorem mem_past_deliver {first : Parcel L} {rest : List (Parcel L)} {other : Side}
    {messageId : MessageId} (member : messageId ∈ mail.past other) :
    messageId ∈ (mail.deliver side first rest).past other := by
  obtain rfl | rfl := side.eq_or_peer other
  · simp [deliver, member]
  · simpa [deliver] using member

theorem traffic_post (parcel : Parcel L) : (mail.post side parcel).traffic =
    Function.update mail.traffic side
      { mail.traffic side with queue := (mail.traffic side).queue ++ [parcel.request] } := by
  funext other
  obtain rfl | rfl := side.eq_or_peer other <;> simp [traffic, post]

theorem traffic_note (nonce : Nonce) : (mail.note side nonce).traffic =
    Function.update mail.traffic side
      { mail.traffic side with nonces := (mail.traffic side).nonces ++ [nonce] } := by
  funext other
  obtain rfl | rfl := side.eq_or_peer other <;> simp [traffic, note]

theorem traffic_deliver (first : Parcel L) (rest : List (Parcel L)) :
    (mail.deliver side first rest).traffic = Function.update mail.traffic side
      { mail.traffic side with
        queue := rest.map Parcel.request
        past := (mail.traffic side).past ++ [first.request.messageId] } := by
  funext other
  obtain rfl | rfl := side.eq_or_peer other <;> simp [traffic, deliver]

theorem mem_ids_post {parcel : Parcel L} {other : Side} {messageId : MessageId}
    (used : messageId ∈ ((mail.post side parcel).traffic other).ids) :
    messageId ∈ (mail.traffic other).ids ∨ messageId = parcel.request.messageId := by
  rw [traffic_post] at used
  obtain rfl | rfl := side.eq_or_peer other
  · simp only [Function.update_self, Traffic.ids, List.map_append, List.map_cons, List.map_nil,
      List.mem_append, List.mem_singleton] at used ⊢
    tauto
  · exact .inl (by simpa using used)

theorem mem_ids_deliver {first : Parcel L} {rest : List (Parcel L)} {other : Side}
    {messageId : MessageId} (head : mail.parcels side = first :: rest)
    (used : messageId ∈ ((mail.deliver side first rest).traffic other).ids) :
    messageId ∈ (mail.traffic other).ids := by
  rw [traffic_deliver] at used
  obtain rfl | rfl := side.eq_or_peer other
  · simp only [Function.update_self, Traffic.ids, traffic, head, List.map_cons, List.mem_append,
      List.mem_cons] at used ⊢
    tauto
  · simpa using used

theorem mem_nonces_note {nonce used : Nonce} {other : Side}
    (member : used ∈ (mail.note side nonce).nonces other) :
    used ∈ mail.nonces other ∨ side = other ∧ nonce = used := by
  obtain rfl | rfl := side.eq_or_peer other
  · simpa [note, eq_comm] using member
  · exact .inl (by simpa [note] using member)

theorem way_post (parcel : Parcel L) : (mail.post side parcel).way =
    Function.update mail.way side (mail.way side ++ [(parcel.message, parcel.bytes)]) := by
  funext other
  obtain rfl | rfl := side.eq_or_peer other <;> simp [way, post]

theorem way_deliver (first : Parcel L) (rest : List (Parcel L)) :
    (mail.deliver side first rest).way =
      Function.update mail.way side (rest.map fun parcel => (parcel.message, parcel.bytes)) := by
  funext other
  obtain rfl | rfl := side.eq_or_peer other <;> simp [way, deliver]

theorem channels_post (parcel : Parcel L) (answered : Bool) :
    (mail.post side parcel).channels answered =
      { mail.channels answered with
        way := Function.update (mail.channels answered).way side
          ((mail.channels answered).way side ++ [parcel.plain]) } := by
  refine congrArg (Channels.mk answered) (funext fun other => ?_)
  obtain rfl | rfl := side.eq_or_peer other <;> simp [channels, post]

theorem channels_deliver (first : Parcel L) (rest : List (Parcel L)) (answered : Bool) :
    (mail.deliver side first rest).channels answered =
      { answered
        way := Function.update (mail.channels answered).way side (rest.map Parcel.plain) } := by
  refine congrArg (Channels.mk answered) (funext fun other => ?_)
  obtain rfl | rfl := side.eq_or_peer other <;> simp [channels, deliver]

end Mail

/-- An end without a session cannot send, and nothing happens. -/
theorem Conversation.sendMessage_of_absent (ratchet : Ratchet L) {setting : Setting P}
    {s : Conversation L} {side : Side} (absent : (s.client side).session = none) (draft : Draft)
    (now : UInt64) : s.sendMessage setting side draft now = (.error .missingSession, s) := by
  obtain ⟨bytes, encoded⟩ :=
    ratchet.encodesPlain ((s.client side).plain draft.messageId draft.body now)
  rw [Conversation.sendMessage, OlmClient.sealMessage_of_absent absent encoded]
  simp only [Function.update_eq_self]

/-- The state of a conversation with its mail. -/
structure Tracks (setting : Setting P) (ratchet : Ratchet L) (conversationId : ConversationId)
    (horizon : Nat) (mail : Mail L) (s : Conversation L) : Prop where
  hosting : Hosting setting horizon mail.traffic s.relay s.submitted
  fits : ∀ side, ∀ parcel ∈ mail.parcels side, parcel.Fits (setting.inbox side) conversationId
  conversation : ∀ side, (s.client side).conversationId = conversationId
  displayed : ∀ side, ∀ messageId ∈ (s.client side).displayedMessages, messageId ∈ mail.past side
  paired : Paired ratchet setting s.client mail.way

namespace Tracks

variable {setting : Setting P} {ratchet : Ratchet L} {conversationId : ConversationId}
  {horizon : Nat} {mail : Mail L} {s : Conversation L}

theorem intrude (tracks : Tracks setting ratchet conversationId horizon mail s) {call : Call P}
    (spares : setting.Spares mail.traffic call) (early : call.clock < horizon) :
    Tracks setting ratchet conversationId horizon mail
      { s with relay := (s.relay.step P call).2 } :=
  { tracks with hosting := tracks.hosting.intrude spares early }

variable (genuine : P.Genuine)
  (apart : ∀ side, (setting.inbox side).queueId ≠ (setting.inbox side.peer).queueId)
  (limit : horizon + 604800 < 2 ^ 63)
include genuine apart limit

/-- An end with a session seals a message for its peer, and the relay stores it. -/
theorem send (tracks : Tracks setting ratchet conversationId horizon mail s) {side : Side}
    {session : L.Session} (present : (s.client side).session = some session) (draft : Draft)
    {now : UInt64} (short : draft.body.utf8ByteSize ≤ ratchet.bodyLimit)
    (timely : Mailbox.Timely 604800 draft.expiresAt now) (early : now.toNat < horizon)
    (lasting : horizon ≤ draft.expiresAt.toNat)
    (fresh : draft.messageId ∉ (mail.traffic side.peer).ids) :
    ∃ (parcel : Parcel L) (packet : EncryptedPacket) (moved : L.Session),
      parcel.plain = (s.client side).plain draft.messageId draft.body now ∧
      parcel.request = (setting.inbox side.peer).senderCapability.authorize draft.messageId packet
        draft.expiresAt ∧
      (s.client side).sealMessage draft.messageId draft.body now draft.entropy =
        (.ok (draft.messageId, packet), { s.client side with session := some moved }) ∧
      (s.relay.enqueue P parcel.request now).1 = .ok .stored ∧
      Tracks setting ratchet conversationId horizon (mail.post side.peer parcel)
        { relay := (s.relay.enqueue P parcel.request now).2
          client := Function.update s.client side { s.client side with session := some moved }
          submitted := s.submitted ++ [.enqueue parcel.request now] } := by
  obtain ⟨bytes, encoded⟩ :=
    ratchet.encodesPlain ((s.client side).plain draft.messageId draft.body now)
  obtain ⟨message, moved, encrypted, paired⟩ := tracks.paired.encrypts present bytes draft.entropy
  obtain ⟨packet, packed, size⟩ := ratchet.packs encoded short encrypted
  have sealed := OlmClient.sealMessage_of_session present encoded encrypted packed
  obtain ⟨stored, hosting⟩ :=
    tracks.hosting.send genuine apart side.peer size timely early lasting limit fresh
  let request := (setting.inbox side.peer).senderCapability.authorize draft.messageId packet
    draft.expiresAt
  refine ⟨⟨(s.client side).plain draft.messageId draft.body now, bytes, message, request⟩, packet,
    moved, rfl, rfl, sealed, stored, ?_, ?_, ?_, ?_, ?_⟩
  · rw [Mail.traffic_post]
    exact hosting
  · intro other listed member
    obtain old | ⟨rfl, rfl⟩ := mail.mem_post _ member
    · exact tracks.fits other listed old
    · exact ⟨rfl, tracks.conversation side, encoded, packed, rfl, genuine _ _⟩
  · intro other
    obtain rfl | rfl := side.eq_or_peer other <;> simpa using tracks.conversation _
  · intro other
    obtain rfl | rfl := side.eq_or_peer other <;> simpa [Mail.post] using tracks.displayed _
  · rw [Mail.way_post]
    exact paired

/-- An end asks for its messages. -/
theorem fetch (tracks : Tracks setting ratchet conversationId horizon mail s) (side : Side)
    {nonce : Nonce} {validUntil now : UInt64} (timely : Mailbox.Timely 300 validUntil now)
    (early : now.toNat < horizon) (fresh : nonce ∉ mail.nonces side) :
    let request := (setting.inbox side).receiverCapability.authorizeFetch nonce validUntil
    (s.relay.fetch P request now).1 =
        .ok ((mail.parcels side).map fun parcel => parcel.request.envelope) ∧
      Tracks setting ratchet conversationId horizon (mail.note side nonce)
        { s with
          relay := (s.relay.fetch P request now).2
          submitted := s.submitted ++ [.fetch request now] } := by
  intro request
  obtain ⟨fetched, hosting⟩ := tracks.hosting.fetch genuine apart side timely early limit fresh
  refine ⟨fetched.trans (congrArg Except.ok List.map_map), { tracks with hosting := ?_ }⟩
  rw [Mail.traffic_note]
  exact hosting

/-- An end opens the first message that is under way to it, and the relay deletes it. -/
theorem take (tracks : Tracks setting ratchet conversationId horizon mail s) {side : Side}
    {first : Parcel L} {rest : List (Parcel L)} (head : mail.parcels side = first :: rest)
    {validUntil now : UInt64} (timely : Mailbox.Timely 300 validUntil now)
    (early : now.toNat < horizon) (week : horizon ≤ now.toNat + 604800) :
    ∃ (account : L.Account) (moved : L.Session),
      let receiver := (setting.inbox side).receiverCapability
      let opened : OpenedMessage := ⟨first.plain, first.request.verified⟩
      let client := (s.client side).showing account moved first.plain.messageId
      let ack := receiver.authorizeAck opened validUntil
      receiver.verifyEnvelope first.request.envelope now = .ok first.request.verified ∧
      (s.client side).openEnvelope (setting.contact side.peer) first.request.verified now =
        (.ok opened, client) ∧
      (s.relay.acknowledge P ack now).1 = .ok .deleted ∧
      Tracks setting ratchet conversationId horizon (mail.deliver side first rest)
        { relay := (s.relay.acknowledge P ack now).2
          client := Function.update s.client side client
          submitted := s.submitted ++ [.acknowledge ack now] } := by
  have fits := tracks.fits side first (head ▸ List.mem_cons_self ..)
  have queue : (mail.traffic side).queue = first.request :: rest.map Parcel.request := by
    rw [Mail.traffic, head, List.map_cons]
  have holds := tracks.hosting.holds side
  have queued : first.request ∈ (mail.traffic side).queue := queue ▸ List.mem_cons_self ..
  have unexpired : now < first.request.verified.expiresAt :=
    UInt64.lt_iff_toNat_lt.mpr (early.trans_le (holds.lasting _ queued))
  have verified : (setting.inbox side).receiverCapability.verifyEnvelope first.request.envelope
      now = .ok first.request.verified :=
    ReceiveCapability.verifyEnvelope_eq_ok.mpr
      ⟨holds.addressed _ queued, unexpired, fits.signed, rfl⟩
  -- An id that was displayed was acknowledged, and then it is not queued any more.
  have fresh : first.plain.messageId ∉ (s.client side).displayedMessages := by
    intro displayed
    have past := tracks.displayed side _ displayed
    rw [fits.sameId] at past
    have distinct := holds.distinct
    rw [Traffic.ids, queue, List.map_cons, List.cons_append, List.nodup_cons] at distinct
    exact distinct.1 (List.mem_append_right _ past)
  have valid : (s.client side).validatePlaintext first.bytes first.request.verified.messageId =
      .ok first.plain := by
    have valid := OlmClient.validatePlaintext_of_plain (ratchet.decodesPlain fits.encoded)
      fits.version (fits.conversation.trans (tracks.conversation side).symm) fresh
    rwa [fits.sameId] at valid
  have way : mail.way side = (first.message, first.bytes) ::
      rest.map fun parcel => (parcel.message, parcel.bytes) := by
    rw [Mail.way, head, List.map_cons]
  obtain ⟨account, moved, opens, paired⟩ :=
    tracks.paired.opens way unexpired (ratchet.decodesMessage fits.packed) valid
  obtain ⟨deleted, hosting⟩ := tracks.hosting.acknowledge genuine apart side queue
    ⟨first.plain, first.request.verified⟩ rfl rfl timely early week limit
  refine ⟨account, moved, verified, opens, deleted, ?_, ?_, ?_, ?_, ?_⟩
  · rw [Mail.traffic_deliver]
    exact hosting
  · intro other listed member
    exact tracks.fits other listed (mail.mem_deliver side head member)
  · intro other
    obtain rfl | rfl := side.eq_or_peer other <;>
      simpa [OlmClient.showing] using tracks.conversation _
  · intro other messageId member
    obtain rfl | rfl := side.eq_or_peer other
    · simp only [Function.update_self, OlmClient.showing, Finset.mem_insert] at member
      obtain rfl | old := member
      · simp [Mail.deliver, fits.sameId]
      · exact mail.mem_past_deliver _ (tracks.displayed _ messageId old)
    · simp only [Function.update_of_ne side.peer_ne] at member
      exact mail.mem_past_deliver _ (tracks.displayed _ messageId member)
  · rw [Mail.way_deliver]
    exact paired

end Tracks

end SecureMessenger
