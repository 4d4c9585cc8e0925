import SecureMessenger.Relay.Admission
import SecureMessenger.Relay.Delivery
import SecureMessenger.Relay.Replay
import SecureMessenger.Relay.Representation

/-!
# A mailbox in use, under attack

One sender writes to a mailbox and its owner reads it, while anybody may submit anything
else to the relay. `Traffic` is what the two of them know of the mailbox: the requests
that are queued, the ids that were acknowledged, and the nonces of the fetches. Within a
window of time in which nothing expires, the mailbox holds exactly this traffic, whatever
the others submit, as long as they cannot sign: they may repeat every request they have
seen, at any time and as often as they like.
-/

namespace SecureMessenger

open Fallible Machine

variable {P : Primitives}

/-- What sender and owner know of a mailbox. -/
structure Traffic where
  queue : List SendRequest
  past : List MessageId
  nonces : List Nonce

namespace Traffic

def empty : Traffic := ⟨[], [], []⟩

/-- The ids that were ever used, the queued ones first. -/
def ids (traffic : Traffic) : List MessageId :=
  traffic.queue.map SendRequest.messageId ++ traffic.past

end Traffic

/-- A call that its submitter could not sign for this mailbox, unless it repeats what was
submitted before. -/
def Call.Harmless (owner : MailboxOwner P) (traffic : Traffic) : Call P → Prop
  | .register _ _ => True
  | .enqueue request _ =>
      owner.send.publicKey.verify (request.signingBytes P) request.signature = true →
        request.messageId ∈ traffic.ids
  | .fetch request _ =>
      owner.receive.publicKey.verify request.signingBytes request.signature = true →
        request.nonce ∈ traffic.nonces
  | .acknowledge request _ =>
      owner.receive.publicKey.verify request.signingBytes request.signature = true →
        request.messageId ∈ traffic.past
  | .deleteMailbox request _ =>
      owner.manage.publicKey.verify request.signingBytes request.signature = false
  | .purgeExpired _ | .queuedMessageCountAt _ | .reopen _ => True

namespace Mailbox

variable {m m' : Mailbox} {owner : MailboxOwner P} {horizon : Nat} {traffic : Traffic}

/-- The mailbox is live under the keys of its owner and holds this traffic, and nothing of
it lapses before the horizon. -/
structure Holds (owner : MailboxOwner P) (horizon : Nat) (traffic : Traffic) (m : Mailbox) :
    Prop where
  keys : m.StoredKeys owner.send.publicKey owner.receive.publicKey owner.manage.publicKey
  messages : m.messages = traffic.queue.map fun request =>
    messageOf request request.expiresAt.toNat
  lasting : ∀ request ∈ traffic.queue, horizon ≤ request.expiresAt.toNat
  addressed : ∀ request ∈ traffic.queue, request.queueId = owner.queueId
  buried : ∀ messageId ∈ traffic.past, HasTombstone messageId horizon m
  stones : ∀ row ∈ m.tombstones, ∃ messageId ∈ traffic.past, row.messageId = messageId.toList
  noted : ∀ row ∈ m.requestNonces, row.role = .receive →
    ∃ nonce ∈ traffic.nonces, row.nonce = nonce.toList
  distinct : traffic.ids.Nodup

theorem Holds.sweep (holds : m.Holds owner horizon traffic) {now : Nat} (early : now < horizon) :
    (m.sweep now).Holds owner horizon traffic where
  keys := ⟨holds.keys.live⟩
  messages := by
    have keeps : m.messages.filter (fun row => (now : Int) < row.expiresAt) = m.messages := by
      refine List.filter_eq_self.mpr fun row member => ?_
      rw [holds.messages] at member
      obtain ⟨request, queued, rfl⟩ := List.mem_map.mp member
      have late : horizon ≤ request.expiresAt.toNat := holds.lasting request queued
      exact decide_eq_true (Int.ofNat_lt.mpr (by omega))
    exact keeps.trans holds.messages
  lasting := holds.lasting
  addressed := holds.addressed
  buried messageId member :=
    ((holds.buried messageId member).sweep now).resolve_left (by omega)
  stones row member := holds.stones row (mem_tombstones_sweep.mp member).1
  noted row member := holds.noted row (mem_requestNonces_sweep.mp member).1
  distinct := holds.distinct

theorem Holds.stands (holds : m.Holds owner horizon traffic) {collision : Prop} {now : UInt64}
    (early : now.toNat < horizon) (bystander : Bystander collision now m m') :
    m'.Holds owner horizon traffic := by
  cases bystander with
  | untouched => exact holds
  | swept => exact holds.sweep early
  | retired =>
      -- Being retired does not matter to a live mailbox.
      have swept := holds.sweep early
      exact { swept with keys := ⟨swept.keys.live⟩, buried := swept.buried }

/-- A queued message is found under its id. -/
theorem Holds.mem_messages (holds : m.Holds owner horizon traffic) {request : SendRequest}
    (queued : request ∈ traffic.queue) :
    messageOf request request.expiresAt.toNat ∈ m.messages := by
  rw [holds.messages]
  exact List.mem_map_of_mem queued

/-- The rows of an id that was not acknowledged. -/
theorem Holds.request_of_mem (holds : m.Holds owner horizon traffic) {row : MessageRow}
    (member : row ∈ m.messages) : ∃ request ∈ traffic.queue,
      row = messageOf request request.expiresAt.toNat := by
  rw [holds.messages] at member
  obtain ⟨request, queued, rfl⟩ := List.mem_map.mp member
  exact ⟨request, queued, rfl⟩

/-- What others submit to the mailbox leaves its traffic alone. -/
theorem Holds.keeps (holds : m.Holds owner horizon traffic) {call : Call P} {reply : Reply}
    (harmless : call.Harmless owner traffic) (early : call.clock < horizon)
    (effect : Effect P m call reply m') : m'.Holds owner horizon traffic := by
  have swept := holds.sweep early
  cases effect with
  | refused => exact holds
  | registered _ _ _ _ _ _ absent => exact absurd absent holds.keys.ne_nil
  | registeredAgain request now =>
      exact {
        keys := ⟨by rw [rows_noteRegistration]; exact swept.keys.live⟩
        messages := by rw [messages_noteRegistration]; exact swept.messages
        lasting := holds.lasting
        addressed := holds.addressed
        buried := by
          simp only [HasTombstone, tombstones_noteRegistration]
          exact swept.buried
        stones := by rw [tombstones_noteRegistration]; exact swept.stones
        noted := by rw [requestNonces_noteRegistration]; exact swept.noted
        distinct := holds.distinct }
  | stored request now _ _ authorised notGone fresh =>
      -- The id is queued, or was acknowledged and has its tombstone.
      have used := harmless (authorised.verified holds.keys)
      have clock : now.toNat < horizon := early
      obtain queued | past := List.mem_append.mp used
      · obtain ⟨other, member, same⟩ := List.mem_map.mp queued
        have late := holds.lasting other member
        have expired := fresh _ (holds.mem_messages member) (by rw [← same]; rfl)
        simp only [messageOf] at expired
        omega
      · obtain ⟨stone, member, same, late⟩ := holds.buried _ past
        have lapsed := notGone stone member same
        omega
  | duplicate | alreadyDeleted => exact swept
  | fetched request now _ authorised =>
      have used := harmless (authorised.verified holds.keys)
      refine { swept with keys := ⟨swept.keys.live⟩, buried := swept.buried, noted := ?_ }
      intro row member role
      obtain old | new := List.mem_append.mp member
      · exact swept.noted row old role
      · rw [List.mem_singleton.mp new]
        exact ⟨request.nonce, used, rfl⟩
  | deleted request now _ authorised row found =>
      have past := harmless (authorised.verified holds.keys)
      have own : row.messageId = request.messageId.toList := by simpa using List.find?_some found
      obtain ⟨queued, member, rfl⟩ := swept.request_of_mem (List.mem_of_find?_eq_some found)
      have same : queued.messageId = request.messageId := FixedBytes.toList_inj.mp own
      have apart := (List.nodup_append.mp holds.distinct).2.2 queued.messageId
        (List.mem_map_of_mem member) request.messageId past
      exact absurd same apart
  | mailboxDeleted request now _ authorised =>
      have signed := authorised.verified holds.keys
      exact Bool.noConfusion (signed.symm.trans harmless)

/-- A mailbox that was never registered. -/
structure Unclaimed (m : Mailbox) : Prop where
  rows : m.rows = []
  unretired : m.retired = false

section Honest

/-- The owner registers the mailbox. -/
theorem Unclaimed.register (unclaimed : m.Unclaimed) (sound : m.Sound) (genuine : P.Genuine)
    (owner : MailboxOwner P) (horizon : Nat) (nonce : Nonce) {validUntil now : UInt64}
    (timely : Timely 300 validUntil now) (fits : validUntil.toNat < 2 ^ 63) :
    (m.step P (.register (owner.registration nonce validUntil) now)).1 =
        .ok (.registered true) ∧
      (m.step P (.register (owner.registration nonce validUntil) now)).2.Holds owner horizon
        .empty := by
  generalize same : owner.registration nonce validUntil = request
  have admitted : m.Admits P (.register request now) := by
    rw [← same]
    exact ⟨timely, timely.future.trans fits, fits, genuine owner.manage _, unclaimed.unretired,
      by simp [unclaimed.rows]⟩
  obtain ⟨⟨fresh, m'⟩, done⟩ := (register_admits sound).mpr admitted
  have reply : (m.step P (.register request now)).1 = .ok (.registered fresh) := by
    rw [Mailbox.step, done]
    rfl
  obtain ⟨messages, tombstones, nonces⟩ := (sound.sweep now.toNat).childless unclaimed.rows
  have effect := m.step_effect (P := P) (.register request now)
  rw [reply] at effect ⊢
  generalize (m.step P (.register request now)).2 = m' at effect
  cases effect with
  | registered =>
      refine ⟨rfl, ?_⟩
      exact {
        keys := ⟨_, rfl, by rw [← same]; rfl, by rw [← same]; rfl, by rw [← same]; rfl⟩
        messages := by
          rw [messages_noteRegistration, messages]
          rfl
        lasting := List.forall_mem_nil _
        addressed := List.forall_mem_nil _
        buried := List.forall_mem_nil _
        stones := by
          rw [tombstones_noteRegistration, tombstones]
          exact List.forall_mem_nil _
        noted := by
          rw [requestNonces_noteRegistration, nonces]
          exact List.forall_mem_nil _
        distinct := List.nodup_nil }
  | registeredAgain _ _ _ _ _ _ row live =>
      rw [unclaimed.rows] at live
      cases live

/-- A request of the owner passes its signature check. -/
theorem Holds.authorised (holds : m.Holds owner horizon traffic) {column : KeyColumn}
    {message : Bytes} {signature : Ed25519Signature} {now : UInt64}
    (fits : now.toNat < 2 ^ 63)
    (signed : (column.pick owner.send.publicKey owner.receive.publicKey
      owner.manage.publicKey).verify message signature = true) :
    m.Authorised P column message signature now :=
  ⟨fits, _, holds.keys.key column, signed⟩

/-- A new message is stored at the end of the queue. -/
theorem Holds.send (holds : m.Holds owner horizon traffic) {request : SendRequest} {now : UInt64}
    (own : request.queueId = owner.queueId)
    (signed : owner.send.publicKey.verify (request.signingBytes P) request.signature = true)
    (size : request.packet ≠ [] ∧ request.packet.length ≤ maxPacketBytes)
    (timely : Timely 604800 request.expiresAt now) (fits : request.expiresAt.toNat < 2 ^ 63)
    (early : now.toNat < horizon) (lasting : horizon ≤ request.expiresAt.toNat)
    (fresh : request.messageId ∉ traffic.ids) :
    (m.step P (.enqueue request now)).1 = .ok (.enqueued .stored) ∧
      (m.step P (.enqueue request now)).2.Holds owner horizon
        { traffic with queue := traffic.queue ++ [request] } := by
  have swept := holds.sweep early
  have authorised : m.Authorised P .sendKey (request.signingBytes P) request.signature now :=
    holds.authorised (by omega) signed
  have unburied : ∀ stone ∈ (m.sweep now.toNat).tombstones,
      stone.messageId ≠ request.messageId.toList := by
    intro stone member same
    obtain ⟨messageId, past, id⟩ := swept.stones stone member
    rw [id, FixedBytes.toList_inj] at same
    exact fresh (List.mem_append_right _ (same ▸ past))
  have unqueued : (m.sweep now.toNat).findMessage request.messageId = none := by
    refine List.find?_eq_none.mpr fun row member same => ?_
    obtain ⟨other, queued, rfl⟩ := swept.request_of_mem member
    have same : other.messageId = request.messageId :=
      FixedBytes.toList_inj.mp (of_decide_eq_true same)
    exact fresh (List.mem_append_left _ (same ▸ List.mem_map_of_mem queued))
  obtain ⟨m', stored⟩ :=
    (enqueue_outcomes size timely fits authorised).stored unburied unqueued
  have reply : (m.step P (.enqueue request now)).1 = .ok (.enqueued .stored) := by
    rw [Mailbox.step, stored]
    rfl
  refine ⟨reply, ?_⟩
  have effect := m.step_effect (P := P) (.enqueue request now)
  rw [reply] at effect
  generalize (m.step P (.enqueue request now)).2 = m' at effect
  cases effect with
  | stored =>
      exact {
        keys := ⟨swept.keys.live⟩
        messages := by
          simp only [swept.messages, List.map_append, List.map_singleton]
        lasting := by
          intro other member
          obtain old | new := List.mem_append.mp member
          · exact holds.lasting other old
          · exact List.mem_singleton.mp new ▸ lasting
        addressed := by
          intro other member
          obtain old | new := List.mem_append.mp member
          · exact holds.addressed other old
          · exact List.mem_singleton.mp new ▸ own
        buried := swept.buried
        stones := swept.stones
        noted := swept.noted
        distinct := by
          have perm : (request.messageId :: traffic.ids).Perm
              ({ traffic with queue := traffic.queue ++ [request] } : Traffic).ids := by
            simp only [Traffic.ids, List.map_append, List.map_singleton, List.append_assoc]
            exact List.perm_middle.symm
          exact perm.nodup_iff.mp (List.nodup_cons.mpr ⟨fresh, holds.distinct⟩) }

/-- A fetch with a new nonce returns the whole queue in order and leaves it. -/
theorem Holds.fetch (holds : m.Holds owner horizon traffic) {request : FetchRequest}
    {now : UInt64} (own : request.queueId = owner.queueId)
    (signed : owner.receive.publicKey.verify request.signingBytes request.signature = true)
    (timely : Timely 300 request.validUntil now) (fits : request.validUntil.toNat < 2 ^ 63)
    (early : now.toNat < horizon) (fresh : request.nonce ∉ traffic.nonces) :
    (m.step P (.fetch request now)).1 =
        .ok (.fetched (traffic.queue.map SendRequest.envelope)) ∧
      (m.step P (.fetch request now)).2.Holds owner horizon
        { traffic with nonces := traffic.nonces ++ [request.nonce] } := by
  have swept := holds.sweep early
  have authorised : m.Authorised P .receiveKey request.signingBytes request.signature now :=
    holds.authorised (by have := timely.future; omega) signed
  have unused : ∀ row ∈ (m.sweep now.toNat).requestNonces, row.role = .receive →
      row.nonce ≠ request.nonce.toList := by
    intro row member role same
    obtain ⟨nonce, noted, id⟩ := swept.noted row member role
    rw [id, FixedBytes.toList_inj] at same
    exact fresh (same ▸ noted)
  have decoded : (m.sweep now.toNat).messages.mapM (decodeEnvelope request.queueId) =
      .ok (traffic.queue.map SendRequest.envelope) := by
    rw [swept.messages, own]
    have each := holds.addressed
    generalize traffic.queue = queue at each
    induction queue with
    | nil => rfl
    | cons first rest ih =>
        rw [List.map_cons, List.mapM_cons, ← each first (List.mem_cons_self ..),
          decodeEnvelope_messageOf, ok_bind, each first (List.mem_cons_self ..),
          ih fun other member => each other (List.mem_cons_of_mem _ member)]
        rfl
  obtain ⟨m', fetched⟩ := fetch_succeeds timely.requestTime fits authorised unused decoded
  have reply : (m.step P (.fetch request now)).1 =
      .ok (.fetched (traffic.queue.map SendRequest.envelope)) := by
    rw [Mailbox.step, fetched]
    rfl
  refine ⟨reply, ?_⟩
  have effect := m.step_effect (P := P) (.fetch request now)
  rw [reply] at effect
  generalize (m.step P (.fetch request now)).2 = m' at effect
  cases effect with
  | fetched =>
      refine { swept with keys := ⟨swept.keys.live⟩, buried := swept.buried, noted := ?_ }
      intro row member role
      obtain old | new := List.mem_append.mp member
      · obtain ⟨nonce, noted, id⟩ := swept.noted row old role
        exact ⟨nonce, List.mem_append_left _ noted, id⟩
      · rw [List.mem_singleton.mp new]
        exact ⟨request.nonce, List.mem_append_right _ (List.mem_singleton_self _), rfl⟩

/-- An acknowledgement of the first message deletes it. -/
theorem Holds.acknowledge {first : SendRequest} {rest : List SendRequest}
    (holds : m.Holds owner horizon traffic) (head : traffic.queue = first :: rest)
    {request : AckRequest} {now : UInt64}
    (signed : owner.receive.publicKey.verify request.signingBytes request.signature = true)
    (sameId : request.messageId = first.messageId)
    (samePacket : request.packetHash = digest P first.packet)
    (timely : Timely 300 request.validUntil now) (early : now.toNat < horizon)
    (week : horizon ≤ now.toNat + 604800) (fits : now.toNat + 604800 < 2 ^ 63) :
    (m.step P (.acknowledge request now)).1 = .ok (.acknowledged .deleted) ∧
      (m.step P (.acknowledge request now)).2.Holds owner horizon
        { traffic with queue := rest, past := traffic.past ++ [first.messageId] } := by
  have swept := holds.sweep early
  have ids : first.messageId ∉ rest.map SendRequest.messageId ++ traffic.past := by
    have distinct := holds.distinct
    rw [Traffic.ids, head, List.map_cons, List.cons_append, List.nodup_cons] at distinct
    exact distinct.1
  have found : (m.sweep now.toNat).findMessage request.messageId =
      some (messageOf first first.expiresAt.toNat) := by
    rw [findMessage, swept.messages, head, List.map_cons]
    exact List.find?_cons_of_pos (decide_eq_true (by rw [sameId]; rfl))
  have authorised : m.Authorised P .receiveKey request.signingBytes request.signature now :=
    holds.authorised (by omega) signed
  obtain ⟨m', deleted⟩ := (ack_outcomes timely authorised).deleted _ found samePacket.symm fits
  have reply : (m.step P (.acknowledge request now)).1 = .ok (.acknowledged .deleted) := by
    rw [Mailbox.step, deleted]
    rfl
  refine ⟨reply, ?_⟩
  have effect := m.step_effect (P := P) (.acknowledge request now)
  rw [reply] at effect
  generalize (m.step P (.acknowledge request now)).2 = m' at effect
  cases effect with
  | deleted =>
      exact {
        keys := ⟨swept.keys.live⟩
        messages := by
          simp only [bury, swept.messages, head, sameId, List.map_cons]
          rw [List.filter_cons_of_neg (by simp [messageOf])]
          refine List.filter_eq_self.mpr fun row member => ?_
          obtain ⟨other, queued, rfl⟩ := List.mem_map.mp member
          refine decide_eq_true fun same => ids (List.mem_append_left _ ?_)
          rw [← FixedBytes.toList_inj.mp same]
          exact List.mem_map_of_mem queued
        lasting := fun other member => holds.lasting other (head ▸ List.mem_cons_of_mem _ member)
        addressed := fun other member =>
          holds.addressed other (head ▸ List.mem_cons_of_mem _ member)
        buried := by
          intro messageId member
          obtain old | new := List.mem_append.mp member
          · exact (swept.buried messageId old).bury _ _ week
          · rw [List.mem_singleton.mp new, ← sameId]
            exact hasTombstone_bury _ _ _ week
        stones := by
          intro stone member
          obtain same | ⟨old, kept, same⟩ := messageId_of_mem_bury member
          · exact ⟨first.messageId, List.mem_append_right _ (List.mem_singleton_self _),
              by rw [same, sameId]⟩
          · obtain ⟨messageId, past, id⟩ := swept.stones old kept
            exact ⟨messageId, List.mem_append_left _ past, same.symm.trans id⟩
        noted := swept.noted
        distinct := by
          have distinct := holds.distinct
          rw [Traffic.ids, head, List.map_cons, List.cons_append] at distinct
          rw [Traffic.ids, ← List.append_assoc]
          exact (List.perm_append_singleton _ _).nodup_iff.mpr distinct }

end Honest

end Mailbox

/-- What is submitted to other mailboxes claims none, unless a deletion retires its id. -/
theorem Relay.unclaimed_step {r : Relay} (current : r.Current) {q : QueueId} {call : Call P}
    (other : call.queueId? ≠ some q) (quiet : call.retires q = false)
    (unclaimed : (r.mailbox P q).Unclaimed) : ((r.step P call).2.mailbox P q).Unclaimed := by
  cases reply : (r.step P call).1 with
  | error e =>
      rw [Relay.step_error reply]
      exact unclaimed
  | ok answer =>
      obtain ⟨tables, committed, image⟩ := Relay.step_ok current reply
      obtain ⟨_, view⟩ := Call.commits_other committed other
      rw [Relay.mailbox_of_image image, view, quiet, Bool.or_false]
      exact ⟨unclaimed.rows, unclaimed.unretired⟩

end SecureMessenger
