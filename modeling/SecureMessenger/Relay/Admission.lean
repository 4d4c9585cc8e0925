import SecureMessenger.Relay.Fifo
import SecureMessenger.Relay.Representation

/-!
# Which calls succeed

`Mailbox.Admits` says of a request and the rows of its mailbox, without running the
operation, whether the operation succeeds: the request is timely and its stored
values fit, its signature verifies under the right key, and the rows that have not
expired allow it. In a sound mailbox a call succeeds exactly when it is admitted.

The sweep for expired rows is part of the transaction of every operation. It takes
effect when the call succeeds; a call that is refused, before the sweep or after it,
leaves every expired row in place.
-/

namespace SecureMessenger

open Fallible Machine

variable {P : Primitives}

namespace Mailbox

variable {m m' : Mailbox}

/-- The conditions under which a call succeeds. -/
def Admits (P : Primitives) (m : Mailbox) : Call P → Prop
  | .register request now =>
      Timely 300 request.validUntil now ∧ now.toNat < 2 ^ 63 ∧ request.validUntil.toNat < 2 ^ 63 ∧
        request.manageKey.verify request.signingBytes request.signature = true ∧
        m.retired = false ∧ ∀ row ∈ m.rows.head?, SameKeys row request
  | .enqueue request now =>
      (request.packet ≠ [] ∧ request.packet.length ≤ maxPacketBytes) ∧
        Timely 604800 request.expiresAt now ∧ request.expiresAt.toNat < 2 ^ 63 ∧
        m.Authorised P .sendKey (request.signingBytes P) request.signature now ∧
        (∀ stone ∈ (m.sweep now.toNat).tombstones,
          stone.messageId ≠ request.messageId.toList) ∧
        ∀ row ∈ (m.sweep now.toNat).messages, row.messageId = request.messageId.toList →
          row.ciphertext = request.packet ∧ row.expiresAt = request.expiresAt.toNat
  | .fetch request now =>
      Timely 300 request.validUntil now ∧ request.validUntil.toNat < 2 ^ 63 ∧
        m.Authorised P .receiveKey request.signingBytes request.signature now ∧
        ∀ row ∈ (m.sweep now.toNat).requestNonces, row.role = .receive →
          row.nonce ≠ request.nonce.toList
  | .acknowledge request now =>
      Timely 300 request.validUntil now ∧
        m.Authorised P .receiveKey request.signingBytes request.signature now ∧
        ((∃ row ∈ (m.sweep now.toNat).messages, row.messageId = request.messageId.toList ∧
            digest P row.ciphertext = request.packetHash ∧ now.toNat + 604800 < 2 ^ 63) ∨
          (∀ row ∈ (m.sweep now.toNat).messages, row.messageId ≠ request.messageId.toList) ∧
            ∃ stone ∈ (m.sweep now.toNat).tombstones,
              stone.messageId = request.messageId.toList)
  | .deleteMailbox request now =>
      Timely 300 request.validUntil now ∧ request.validUntil.toNat < 2 ^ 63 ∧
        m.Authorised P .manageKey request.signingBytes request.signature now ∧
        ∀ row ∈ (m.sweep now.toNat).requestNonces, row.role = .manage →
          row.nonce ≠ request.nonce.toList
  | .purgeExpired now | .queuedMessageCountAt now | .reopen now => now.toNat < 2 ^ 63

theorem Timely.requestTime {deadline now : UInt64} (timely : Timely 300 deadline now) :
    validateRequestTime deadline now = .ok () :=
  validateRequestTime_eq_ok.mpr ⟨timely.future, timely.near⟩

theorem Timely.messageExpiry {deadline now : UInt64} (timely : Timely 604800 deadline now) :
    validateMessageExpiry deadline now = .ok () :=
  validateMessageExpiry_eq_ok.mpr ⟨timely.future, timely.near⟩

theorem purge_of_representable (m : Mailbox) {now : UInt64} (representable : now.toNat < 2 ^ 63) :
    m.purge now = .ok (m.sweep now.toNat) :=
  purge_eq_ok.mpr ⟨representable, rfl⟩

theorem toI64_of_fits {value : UInt64} (fits : value.toNat < 2 ^ 63) :
    toI64 value = .ok value.toNat :=
  toI64_eq_ok.mpr ⟨fits, rfl⟩

/-- A mailbox that is neither live nor retired remembers no registration. -/
theorem Sound.unregistered (sound : m.Sound) (absent : m.rows = []) (unretired : m.retired = false)
    (nonce : Nonce) : m.hasRegistrationNonce nonce = false := by
  have none : m.registrationNonces = [] := by
    by_contra some
    obtain live | retired := sound.registered some
    · exact live absent
    · exact Bool.noConfusion (retired.symm.trans unretired)
  rw [hasRegistrationNonce, none]
  rfl

/-- The deadline of a tombstone fits if it does without saturation. -/
theorem tombstone_deadline_fits {now : UInt64} (fits : now.toNat + 604800 < 2 ^ 63) :
    ∃ deleteAfter, toI64 (saturatingAdd now tombstoneTtlSeconds) = .ok deleteAfter := by
  refine ⟨_, toI64_of_fits ?_⟩
  have week : tombstoneTtlSeconds.toNat = 604800 := rfl
  rw [toNat_saturatingAdd]
  omega

theorem register_admits (sound : m.Sound) {request : MailboxRegistration P} {now : UInt64} :
    (∃ result, m.register P request now = .ok result) ↔ m.Admits P (.register request now) := by
  constructor
  · rintro ⟨result, h⟩
    simp only [register, bind_eq_ok, rejectIf_eq_ok, purge_eq_ok, validateRequestTime_eq_ok] at h
    obtain ⟨_, ⟨future, near⟩, _, signed, _, ⟨representable, rfl⟩, _, unretired, h⟩ := h
    simp only [Bool.not_eq_false, Bool.not_eq_true, retired_sweep] at signed unretired
    split at h
    · rename_i row live
      simp only [bind_eq_ok, rejectIf_eq_ok, Decidable.not_not, toI64_eq_ok] at h
      obtain ⟨_, same, _, ⟨fits, _⟩, _⟩ := h
      refine ⟨⟨future, near⟩, representable, fits, signed, unretired, fun row' member => ?_⟩
      cases Option.mem_unique live member
      exact same
    · rename_i absent
      simp only [bind_eq_ok, toI64_eq_ok] at h
      obtain ⟨_, ⟨fits, _⟩, _⟩ := h
      refine ⟨⟨future, near⟩, representable, fits, signed, unretired, fun row member => ?_⟩
      cases absent.symm.trans member
  · rintro ⟨timely, representable, fits, signed, unretired, sameKeys⟩
    have live : (m.sweep now.toNat).rows = m.rows := rfl
    rw [register, timely.requestTime, ok_bind, rejectIf_of_not (by simp [signed]), ok_bind,
      m.purge_of_representable representable, ok_bind, rejectIf_of_not (by simp [unretired]),
      ok_bind, toI64_of_fits fits, toI64_of_fits representable, live]
    cases found : m.rows.head? with
    | some row =>
        simp only [rejectIf_of_not (not_not_intro (sameKeys row found)), ok_bind]
        exact ⟨_, rfl⟩
    | none =>
        have absent := List.head?_eq_none_iff.mp found
        simp only [ok_bind, (sound.sweep now.toNat).unregistered absent unretired]
        exact ⟨_, rfl⟩

/-- At most one message has a given id. -/
theorem Sound.findMessage_of_mem (sound : m.Sound) {row : MessageRow} (member : row ∈ m.messages)
    {messageId : MessageId} (same : row.messageId = messageId.toList) :
    m.findMessage messageId = some row := by
  cases found : m.findMessage messageId with
  | none => exact absurd (by simpa using same) (List.find?_eq_none.mp found row member)
  | some row' =>
      have same' : row'.messageId = messageId.toList := by simpa using List.find?_some found
      rw [sound.eq_of_messageId (List.mem_of_find?_eq_some found) member (same'.trans same.symm)]

/-- What an enqueue does once the request itself has passed its checks. -/
structure EnqueueOutcomes (P : Primitives) (m : Mailbox) (request : SendRequest) (now : UInt64) :
    Prop where
  gone : (∃ stone ∈ (m.sweep now.toNat).tombstones,
      stone.messageId = request.messageId.toList) →
    m.enqueue P request now = .error .messageGone
  duplicate : (∀ stone ∈ (m.sweep now.toNat).tombstones,
      stone.messageId ≠ request.messageId.toList) →
    ∀ row, (m.sweep now.toNat).findMessage request.messageId = some row →
      row.ciphertext = request.packet → row.expiresAt = request.expiresAt.toNat →
      m.enqueue P request now = .ok (.duplicate, m.sweep now.toNat)
  stored : (∀ stone ∈ (m.sweep now.toNat).tombstones,
      stone.messageId ≠ request.messageId.toList) →
    (m.sweep now.toNat).findMessage request.messageId = none →
    ∃ m', m.enqueue P request now = .ok (.stored, m')

theorem enqueue_outcomes {request : SendRequest} {now : UInt64}
    (size : request.packet ≠ [] ∧ request.packet.length ≤ maxPacketBytes)
    (timely : Timely 604800 request.expiresAt now) (fits : request.expiresAt.toNat < 2 ^ 63)
    (authorised : m.Authorised P .sendKey (request.signingBytes P) request.signature now) :
    EnqueueOutcomes P m request now := by
  obtain ⟨key, hasKey, verified⟩ := authorised.signed
  have buried : (m.sweep now.toNat).tombstones.any (fun row =>
      row.messageId = request.messageId.toList ∧ (now.toNat : Int) < row.deleteAfter) = true ↔
      ∃ stone ∈ (m.sweep now.toNat).tombstones, stone.messageId = request.messageId.toList := by
    simp only [List.any_eq_true, decide_eq_true_eq]
    constructor
    · rintro ⟨stone, member, same, _⟩
      exact ⟨stone, member, same⟩
    · rintro ⟨stone, member, same⟩
      exact ⟨stone, member, same, (mem_tombstones_sweep.mp member).2⟩
  constructor <;> intro stones
  all_goals
    rw [enqueue, rejectIf_of_not (by simp [size.1, size.2]), ok_bind, timely.messageExpiry,
      ok_bind, m.purge_of_representable authorised.representable, ok_bind, key_sweep, hasKey,
      ok_bind, rejectIf_of_not (by simp [verified]), ok_bind,
      toI64_of_fits authorised.representable, ok_bind]
  case gone => rw [rejectIf_of (buried.mpr stones), error_bind]
  case duplicate =>
    intro row found samePacket sameExpiry
    rw [rejectIf_of_not (fun some => by
      obtain ⟨stone, member, same⟩ := buried.mp some
      exact stones stone member same), ok_bind, found, toI64_of_fits fits]
    simp only [if_pos samePacket, ok_bind, rejectIf_of_not (not_not_intro sameExpiry)]
  case stored =>
    intro found
    rw [rejectIf_of_not (fun some => by
      obtain ⟨stone, member, same⟩ := buried.mp some
      exact stones stone member same), ok_bind, found, toI64_of_fits fits]
    exact ⟨_, rfl⟩

theorem enqueue_admits (sound : m.Sound) {request : SendRequest} {now : UInt64} :
    (∃ result, m.enqueue P request now = .ok result) ↔ m.Admits P (.enqueue request now) := by
  constructor
  · rintro ⟨result, h⟩
    simp only [enqueue, bind_eq_ok, rejectIf_eq_ok, purge_eq_ok, validateMessageExpiry_eq_ok,
      toI64_eq_ok] at h
    obtain ⟨_, size, _, ⟨future, near⟩, _, ⟨representable, rfl⟩, key, hasKey, _, verified, _,
      ⟨_, rfl⟩, _, notGone, h⟩ := h
    have size : request.packet ≠ [] ∧ request.packet.length ≤ maxPacketBytes := by
      simpa only [not_or, Nat.not_lt] using size
    have authorised : m.Authorised P .sendKey (request.signingBytes P) request.signature now :=
      ⟨representable, key, hasKey, by simpa using verified⟩
    have stones : ∀ stone ∈ (m.sweep now.toNat).tombstones,
        stone.messageId ≠ request.messageId.toList := by
      intro stone member same
      exact notGone (List.any_eq_true.mpr ⟨stone, member, by
        simpa only [decide_eq_true_eq] using ⟨same, (mem_tombstones_sweep.mp member).2⟩⟩)
    split at h
    · rename_i row found
      split at h
      · rename_i samePacket
        simp only [bind_eq_ok, rejectIf_eq_ok, toI64_eq_ok, ne_eq, Decidable.not_not] at h
        obtain ⟨_, ⟨fits, rfl⟩, _, sameExpiry, _⟩ := h
        refine ⟨size, ⟨future, near⟩, fits, authorised, stones, fun row' member same => ?_⟩
        cases found.symm.trans ((sound.sweep now.toNat).findMessage_of_mem member same)
        exact ⟨samePacket, sameExpiry⟩
      · cases h
    · rename_i none
      simp only [bind_eq_ok, toI64_eq_ok] at h
      obtain ⟨_, ⟨fits, _⟩, _⟩ := h
      refine ⟨size, ⟨future, near⟩, fits, authorised, stones, fun row member same => ?_⟩
      exact absurd (by simpa using same) (List.find?_eq_none.mp none row member)
  · rintro ⟨size, timely, fits, authorised, stones, agrees⟩
    have outcomes := enqueue_outcomes size timely fits authorised
    cases found : (m.sweep now.toNat).findMessage request.messageId with
    | some row =>
        obtain ⟨samePacket, sameExpiry⟩ := agrees row (List.mem_of_find?_eq_some found)
          (by simpa using List.find?_some found)
        exact ⟨_, outcomes.duplicate stones row found samePacket sameExpiry⟩
    | none =>
        obtain ⟨m', stored⟩ := outcomes.stored stones found
        exact ⟨_, stored⟩

theorem fetch_admits (decodes : ∀ queueId, ∀ row ∈ m.messages,
      ∃ envelope, decodeEnvelope queueId row = .ok envelope)
    {request : FetchRequest} {now : UInt64} :
    (∃ result, m.fetch P request now = .ok result) ↔ m.Admits P (.fetch request now) := by
  constructor
  · rintro ⟨result, h⟩
    simp only [fetch, bind_eq_ok, rejectIf_eq_ok, purge_eq_ok, validateRequestTime_eq_ok,
      recordNonce_eq_ok] at h
    obtain ⟨_, ⟨future, near⟩, _, ⟨representable, rfl⟩, key, hasKey, _, verified, _,
      ⟨fits, unused, _⟩, _⟩ := h
    exact ⟨⟨future, near⟩, fits, ⟨representable, key, hasKey, by simpa using verified⟩, unused⟩
  · rintro ⟨timely, fits, authorised, unused⟩
    have each : ∀ row ∈ (m.sweep now.toNat).messages,
        ∃ envelope, decodeEnvelope request.queueId row = .ok envelope :=
      fun row member => decodes request.queueId row (mem_messages_sweep.mp member).1
    obtain ⟨envelopes, decoded⟩ := mapM_succeeds each
    obtain ⟨m', fetched⟩ := fetch_succeeds timely.requestTime fits authorised unused decoded
    exact ⟨_, fetched⟩

/-- What an acknowledgement does once the request itself has passed its checks. -/
structure AckOutcomes (P : Primitives) (m : Mailbox) (request : AckRequest) (now : UInt64) :
    Prop where
  deleted : ∀ row, (m.sweep now.toNat).findMessage request.messageId = some row →
    digest P row.ciphertext = request.packetHash → now.toNat + 604800 < 2 ^ 63 →
    ∃ m', m.acknowledge P request now = .ok (.deleted, m')
  alreadyDeleted : (m.sweep now.toNat).findMessage request.messageId = none →
    (∃ stone ∈ (m.sweep now.toNat).tombstones, stone.messageId = request.messageId.toList) →
    m.acknowledge P request now = .ok (.alreadyDeleted, m.sweep now.toNat)

theorem ack_outcomes {request : AckRequest} {now : UInt64}
    (timely : Timely 300 request.validUntil now)
    (authorised : m.Authorised P .receiveKey request.signingBytes request.signature now) :
    AckOutcomes P m request now := by
  obtain ⟨key, hasKey, verified⟩ := authorised.signed
  constructor
  all_goals
    rw [acknowledge, timely.requestTime, ok_bind,
      m.purge_of_representable authorised.representable, ok_bind, key_sweep, hasKey, ok_bind,
      rejectIf_of_not (by simp [verified]), ok_bind]
  case deleted =>
    intro row found same fits
    obtain ⟨deleteAfter, deadline⟩ := tombstone_deadline_fits fits
    rw [found]
    simp only [rejectIf_of_not (not_not_intro same), ok_bind, deadline]
    exact ⟨_, rfl⟩
  case alreadyDeleted =>
    rintro found ⟨stone, member, same⟩
    have stones : (m.sweep now.toNat).tombstones.any
        (fun row => row.messageId = request.messageId.toList) = true :=
      List.any_eq_true.mpr ⟨stone, member, by simpa using same⟩
    rw [found]
    simp only [stones]
    rfl

theorem acknowledge_admits (sound : m.Sound) {request : AckRequest} {now : UInt64} :
    (∃ result, m.acknowledge P request now = .ok result) ↔
      m.Admits P (.acknowledge request now) := by
  constructor
  · rintro ⟨result, h⟩
    simp only [acknowledge, bind_eq_ok, rejectIf_eq_ok, purge_eq_ok, validateRequestTime_eq_ok] at h
    obtain ⟨_, ⟨future, near⟩, _, ⟨representable, rfl⟩, key, hasKey, _, verified, h⟩ := h
    refine ⟨⟨future, near⟩, ⟨representable, key, hasKey, by simpa using verified⟩, ?_⟩
    split at h
    · rename_i notFound
      simp only [bind_eq_ok, rejectIf_eq_ok, Bool.not_eq_false, List.any_eq_true,
        decide_eq_true_eq] at h
      obtain ⟨_, stones, _⟩ := h
      refine .inr ⟨fun row member same => ?_, stones⟩
      exact absurd (by simpa using same) (List.find?_eq_none.mp notFound row member)
    · rename_i row found
      simp only [bind_eq_ok, rejectIf_eq_ok, Decidable.not_not, ne_eq] at h
      obtain ⟨_, sameDigest, _, deadline, _⟩ := h
      refine .inl ⟨row, List.mem_of_find?_eq_some found, by simpa using List.find?_some found,
        sameDigest, ?_⟩
      have value := tombstone_deadline deadline
      obtain ⟨fits, rfl⟩ := toI64_eq_ok.mp deadline
      omega
  · rintro ⟨timely, authorised, ⟨row, member, same, sameDigest, fits⟩ | ⟨absent, stones⟩⟩
    · have found := (sound.sweep now.toNat).findMessage_of_mem member same
      obtain ⟨m', deleted⟩ := (ack_outcomes timely authorised).deleted row found sameDigest fits
      exact ⟨_, deleted⟩
    · refine ⟨_, (ack_outcomes timely authorised).alreadyDeleted ?_ stones⟩
      exact List.find?_eq_none.mpr fun row member => by simpa using absent row member

theorem deleteMailbox_admits {request : DeleteMailboxRequest} {now : UInt64} :
    (∃ result, m.deleteMailbox P request now = .ok result) ↔
      m.Admits P (.deleteMailbox request now) := by
  constructor
  · rintro ⟨result, h⟩
    simp only [deleteMailbox, bind_eq_ok, rejectIf_eq_ok, purge_eq_ok, validateRequestTime_eq_ok,
      recordNonce_eq_ok] at h
    obtain ⟨_, ⟨future, near⟩, _, ⟨representable, rfl⟩, key, hasKey, _, verified, _,
      ⟨fits, unused, _⟩, _⟩ := h
    exact ⟨⟨future, near⟩, fits, ⟨representable, key, hasKey, by simpa using verified⟩, unused⟩
  · rintro ⟨timely, fits, authorised, unused⟩
    obtain ⟨key, hasKey, verified⟩ := authorised.signed
    rw [deleteMailbox, timely.requestTime, ok_bind,
      m.purge_of_representable authorised.representable, ok_bind, key_sweep, hasKey, ok_bind,
      rejectIf_of_not (by simp [verified]), ok_bind,
      recordNonce_eq_ok.mpr ⟨fits, unused, rfl⟩, ok_bind,
      toI64_of_fits authorised.representable]
    exact ⟨_, rfl⟩

/-- A mailbox grants what it admits. -/
theorem step_admits (sound : m.Sound) (decodes : ∀ queueId, ∀ row ∈ m.messages,
      ∃ envelope, decodeEnvelope queueId row = .ok envelope)
    {call : Call P} {q : QueueId} (own : call.queueId? = some q) :
    (∃ answer, (m.step P call).1 = .ok answer) ↔ m.Admits P call := by
  have granted : ∀ {α : Type} (wrap : α → Answer) (body : Except LabError (α × Mailbox)),
      (∃ answer, (m.transact wrap body).1 = .ok answer) ↔ ∃ result, body = .ok result := by
    intro α wrap body
    cases body with
    | error e => simp [transact]
    | ok result => simp [transact]
  cases call with
  | register request now => exact (granted _ _).trans (register_admits sound)
  | enqueue request now => exact (granted _ _).trans (enqueue_admits sound)
  | fetch request now => exact (granted _ _).trans (fetch_admits decodes)
  | acknowledge request now => exact (granted _ _).trans (acknowledge_admits sound)
  | deleteMailbox request now => exact (granted _ _).trans deleteMailbox_admits
  | purgeExpired | queuedMessageCountAt | reopen => cases own

end Mailbox

namespace Relay

/-- A call is admitted by the mailbox it is addressed to. The others need only a
clock value that the database can hold. -/
def Admits (P : Primitives) (r : Relay) (call : Call P) : Prop :=
  match call.queueId? with
  | some q => (r.mailbox P q).Admits P call
  | none => call.clock < 2 ^ 63

/-- No message has expired. -/
def Swept (r : Relay) (time : Nat) : Prop :=
  ∀ row ∈ r.image.tables.messages.contents, (time : Int) < row.expiresAt

instance (r : Relay) (time : Nat) : Decidable (r.Swept time) :=
  inferInstanceAs (Decidable (∀ row ∈ r.image.tables.messages.contents, _))

/-- In a reachable relay exactly the admitted calls succeed. -/
theorem step_succeeds_iff (calls : List (Call P)) {call : Call P}
    (running : ∀ now, call ≠ .reopen now) :
    (∃ answer, ((Relay.after P calls).step P call).1 = .ok answer) ↔
      (Relay.after P calls).Admits P call := by
  rw [Admits]
  cases addressed : call.queueId? with
  | some q =>
      have decodes : ∀ queueId, ∀ row ∈ ((Relay.after P calls).mailbox P q).messages,
          ∃ envelope, decodeEnvelope queueId row = .ok envelope := by
        intro queueId row member
        have stored := (List.mem_filter.mp member).1
        obtain ⟨_, positive, fits⟩ := (checked_after calls).packets row stored
        exact decodeEnvelope_succeeds _ ((checked_after calls).messages row stored).2 positive fits
      rw [(step_own _ addressed).1]
      exact Mailbox.step_admits (sound_after calls q) decodes addressed
  | none =>
      constructor
      · rintro ⟨answer, ok⟩
        obtain ⟨_, committed, _⟩ := step_ok (current_after calls) ok
        exact (Call.commits_bounded committed).1
      · intro representable
        cases call with
        | purgeExpired now =>
            have fits : now.toNat < 2 ^ 63 := representable
            rw [Relay.step, purgeExpired, Tables.purgeExpiredIn_of_fits _ fits]
            exact ⟨_, rfl⟩
        | queuedMessageCountAt now =>
            have fits : now.toNat < 2 ^ 63 := representable
            rw [Relay.step, queuedMessageCountAt, purgeExpired,
              Tables.purgeExpiredIn_of_fits _ fits]
            exact ⟨_, rfl⟩
        | reopen now => exact absurd rfl (running now)
        | register | enqueue | fetch | acknowledge | deleteMailbox => cases addressed

/-- A successful call leaves no expired message behind. -/
theorem swept_of_ok {r : Relay} (current : r.Current) {call : Call P} {answer : Answer}
    (ok : (r.step P call).1 = .ok answer) : (r.step P call).2.Swept call.clock := by
  obtain ⟨tables, committed, image⟩ := step_ok current ok
  obtain ⟨_, bounded⟩ := Call.commits_bounded committed
  intro row member
  rw [image] at member
  obtain ⟨_, unexpired⟩ | new := (Call.commits_arises committed).messages row member
  · exact unexpired
  · cases call <;> cases new
    exact Int.ofNat_lt.mpr bounded.2.1.future

/-- An operation of a reachable relay leaves no expired message of any mailbox behind
exactly if there was none before or the call is admitted. -/
theorem swept_iff_admitted (calls : List (Call P)) (call : Call P)
    (running : ∀ now, call ≠ .reopen now) :
    (Relay.after P (calls ++ [call])).Swept call.clock ↔
      (Relay.after P calls).Swept call.clock ∨ (Relay.after P calls).Admits P call := by
  rw [after_concat, ← step_succeeds_iff calls running]
  cases reply : ((Relay.after P calls).step P call).1 with
  | error e =>
      rw [step_error reply]
      simp
  | ok answer =>
      exact iff_of_true (swept_of_ok (current_after calls) reply) (.inr ⟨answer, rfl⟩)

namespace Lingering

def owner : MailboxOwner .symbolic := .symbolic 1
def stranger : MailboxOwner .symbolic := .symbolic 11

/-- A message that expires at 120 and was never fetched. -/
def calls : List (Call .symbolic) :=
  [.register (owner.registration (.fill 16 5) 160) 100,
    .enqueue (owner.senderCapability.authorize (.fill 16 1) [1] 120) 101]

/-- A fetch from a mailbox that was never registered. -/
def misdirected : Call .symbolic :=
  .fetch (stranger.receiverCapability.authorizeFetch (.fill 16 7) 250) 200

end Lingering

open Lingering in
/-- A call that fails after the sweep rolls it back: the expired message stays. -/
theorem refused_fetch_keeps_expired :
    (∀ now, misdirected ≠ .reopen now) ∧ misdirected.clock < 2 ^ 63 ∧
      ((Relay.after .symbolic calls).step .symbolic misdirected).1 = .error .mailboxNotFound ∧
      ¬ (Relay.after .symbolic (calls ++ [misdirected])).Swept misdirected.clock :=
  ⟨by rintro now ⟨⟩, by decide, by decide +kernel, by decide +kernel⟩

open Lingering in
theorem swept_iff_admitted_lingering :
    ¬ (Relay.after .symbolic calls).Swept 200 ∧
      (Relay.after .symbolic (calls ++ [.purgeExpired 200])).Swept 200 :=
  ⟨by decide +kernel,
    (swept_iff_admitted calls (.purgeExpired 200) (by rintro now ⟨⟩)).mpr
      (.inr (show (200 : UInt64).toNat < 2 ^ 63 by decide))⟩

end Relay

end SecureMessenger
