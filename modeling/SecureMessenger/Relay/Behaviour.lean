import SecureMessenger.Relay.Simulation

/-!
# What a mailbox can do in one step

`Mailbox.Effect` lists every outcome of a call on the mailbox it is addressed to:
a refusal, which changes nothing, or one of the eight successes with the checks
that were passed and the rows that result. All run properties of the relay are
derived from this list and from the bystander relation; no later proof opens the
operations themselves.

Deadlines are compared with the clock as natural numbers here. A sweep at a later
time subsumes an earlier one, so an invariant may speak about the rows that are
still unexpired at the latest clock value and ignore which sweeps were rolled
back.
-/

namespace SecureMessenger

open Fallible

variable {P : Primitives}

theorem validateRequestTime_eq_ok {validUntil now : UInt64} {u : Unit} :
    validateRequestTime validUntil now = .ok u ↔
      now.toNat < validUntil.toNat ∧ validUntil.toNat ≤ now.toNat + 300 := by
  have bound := validUntil.toNat_lt
  rw [validateRequestTime, rejectIf_eq_ok, UInt64.le_iff_toNat_le, UInt64.lt_iff_toNat_lt,
    toNat_saturatingAdd]
  have minutes : (5 * 60 : UInt64).toNat = 300 := rfl
  omega

theorem validateMessageExpiry_eq_ok {expiresAt now : UInt64} {u : Unit} :
    validateMessageExpiry expiresAt now = .ok u ↔
      now.toNat < expiresAt.toNat ∧ expiresAt.toNat ≤ now.toNat + 604800 := by
  have bound := expiresAt.toNat_lt
  rw [validateMessageExpiry, rejectIf_eq_ok, UInt64.le_iff_toNat_le, UInt64.lt_iff_toNat_lt,
    toNat_saturatingAdd]
  have week : maxMessageTtlSeconds.toNat = 604800 := rfl
  omega

/-- The deadline of a tombstone is a week after the acknowledgement. -/
theorem tombstone_deadline {now : UInt64} {deleteAfter : Int}
    (h : toI64 (saturatingAdd now tombstoneTtlSeconds) = .ok deleteAfter) :
    deleteAfter = now.toNat + 604800 := by
  obtain ⟨fits, rfl⟩ := toI64_eq_ok.mp h
  rw [toNat_saturatingAdd] at fits ⊢
  have week : tombstoneTtlSeconds.toNat = 604800 := rfl
  omega

namespace Mailbox

variable {m m' : Mailbox}

@[simp] theorem retired_sweep (m : Mailbox) (now : Int) : (m.sweep now).retired = m.retired := rfl

@[simp] theorem key_sweep (m : Mailbox) (now : Int) (column : KeyColumn) :
    (m.sweep now).key P column = m.key P column := rfl

@[simp] theorem mem_messages_sweep {now : Int} {row : MessageRow} :
    row ∈ (m.sweep now).messages ↔ row ∈ m.messages ∧ now < row.expiresAt := by
  simp [sweep]

@[simp] theorem mem_tombstones_sweep {now : Int} {row : TombstoneRow} :
    row ∈ (m.sweep now).tombstones ↔ row ∈ m.tombstones ∧ now < row.deleteAfter := by
  simp [sweep]

@[simp] theorem mem_requestNonces_sweep {now : Int} {row : RequestNonceRow} :
    row ∈ (m.sweep now).requestNonces ↔ row ∈ m.requestNonces ∧ now < row.deleteAfter := by
  simp [sweep]

/-- A later sweep subsumes an earlier one. -/
theorem sweep_sweep (m : Mailbox) {early late : Int} (le : early ≤ late) :
    (m.sweep early).sweep late = m.sweep late := by
  have both : ∀ deadline : Int,
      (decide (late < deadline) && decide (early < deadline)) = decide (late < deadline) := by
    intro deadline
    by_cases h : late < deadline
    · simp [h, Int.lt_of_le_of_lt le h]
    · simp [h]
  simp [sweep, List.filter_filter, both]

theorem purge_eq_ok {now : UInt64} :
    m.purge now = .ok m' ↔ now.toNat < 2 ^ 63 ∧ m' = m.sweep now.toNat := by
  simp only [purge, bind_eq_ok, toI64_eq_ok, Except.ok.injEq]
  constructor
  · rintro ⟨_, ⟨fits, rfl⟩, rfl⟩
    exact ⟨fits, rfl⟩
  · rintro ⟨fits, rfl⟩
    exact ⟨_, ⟨fits, rfl⟩, rfl⟩

/-- A key found in the mailbox is the content of its column. -/
theorem key_eq_ok {column : KeyColumn} {key : Ed25519PublicKey P}
    (h : m.key P column = .ok key) :
    ∃ row rest, m.rows = row :: rest ∧ column.read row = key.asBytes := by
  cases hr : m.rows with
  | nil => simp [Mailbox.key, hr] at h
  | cons row rest =>
      refine ⟨row, rest, rfl, ?_⟩
      simp only [Mailbox.key, hr, List.head?_cons, decodeKey] at h
      split at h
      · cases h
      · rename_i bytes slice
        split at h
        · cases h
        · rename_i key' accepted
          cases h
          rw [Ed25519PublicKey.asBytes, Ed25519PublicKey.bytes_of_fromSlice accepted]
          exact (FixedBytes.toList_of_fromSlice slice).symm

/-- The checks every signed request of a live mailbox passes. -/
structure Authorised (m : Mailbox) (P : Primitives) (column : KeyColumn) (message : Bytes)
    (signature : Ed25519Signature) (now : UInt64) : Prop where
  representable : now.toNat < 2 ^ 63
  signed : ∃ key, m.key P column = .ok key ∧ key.verify message signature = true

/-- A deadline in the future, but not further away than the window. -/
structure Timely (window : Nat) (deadline now : UInt64) : Prop where
  future : now.toNat < deadline.toNat
  near : deadline.toNat ≤ now.toNat + window

/-- Every outcome of a call on the mailbox it is addressed to. -/
inductive Effect (P : Primitives) (m : Mailbox) : Call P → Reply → Mailbox → Prop
  | refused (call : Call P) (e : LabError) : Effect P m call (.error e) m
  | registered (request : MailboxRegistration P) (now : UInt64)
      (timely : Timely 300 request.validUntil now) (representable : now.toNat < 2 ^ 63)
      (signed : request.manageKey.verify request.signingBytes request.signature = true)
      (unretired : m.retired = false) (absent : m.rows = [])
      (unused : (m.sweep now.toNat).hasRegistrationNonce request.nonce = false) :
      Effect P m (.register request now) (.ok (.registered true))
        { (m.sweep now.toNat).noteRegistration request.queueId request.nonce
            request.validUntil.toNat with
          rows := [rowOf request now.toNat] }
  | registeredAgain (request : MailboxRegistration P) (now : UInt64)
      (timely : Timely 300 request.validUntil now) (representable : now.toNat < 2 ^ 63)
      (signed : request.manageKey.verify request.signingBytes request.signature = true)
      (unretired : m.retired = false)
      (row : MailboxRow) (live : m.rows.head? = some row) (same : SameKeys row request) :
      Effect P m (.register request now) (.ok (.registered false))
        ((m.sweep now.toNat).noteRegistration request.queueId request.nonce
          request.validUntil.toNat)
  | stored (request : SendRequest) (now : UInt64)
      (size : request.packet ≠ [] ∧ request.packet.length ≤ maxPacketBytes)
      (timely : Timely 604800 request.expiresAt now)
      (authorised : m.Authorised P .sendKey (request.signingBytes P) request.signature now)
      (notGone : ∀ row ∈ m.tombstones, row.messageId = request.messageId.toList →
        row.deleteAfter ≤ now.toNat)
      (fresh : ∀ row ∈ m.messages, row.messageId = request.messageId.toList →
        row.expiresAt ≤ now.toNat) :
      Effect P m (.enqueue request now) (.ok (.enqueued .stored))
        { m.sweep now.toNat with
          messages := (m.sweep now.toNat).messages ++ [messageOf request request.expiresAt.toNat] }
  | duplicate (request : SendRequest) (now : UInt64)
      (timely : Timely 604800 request.expiresAt now)
      (authorised : m.Authorised P .sendKey (request.signingBytes P) request.signature now)
      (row : MessageRow) (found : (m.sweep now.toNat).findMessage request.messageId = some row)
      (samePacket : row.ciphertext = request.packet)
      (sameExpiry : row.expiresAt = request.expiresAt.toNat) :
      Effect P m (.enqueue request now) (.ok (.enqueued .duplicate)) (m.sweep now.toNat)
  | fetched (request : FetchRequest) (now : UInt64)
      (timely : Timely 300 request.validUntil now)
      (authorised : m.Authorised P .receiveKey request.signingBytes request.signature now)
      (unused : ∀ row ∈ m.requestNonces, row.role = .receive → row.nonce = request.nonce.toList →
        row.deleteAfter ≤ now.toNat)
      (envelopes : List StoredEnvelope)
      (decoded : (m.sweep now.toNat).messages.mapM (decodeEnvelope request.queueId) =
        .ok envelopes) :
      Effect P m (.fetch request now) (.ok (.fetched envelopes))
        { m.sweep now.toNat with
          requestNonces := (m.sweep now.toNat).requestNonces ++
            [{ queueId := request.queueId.toList, role := .receive, nonce := request.nonce.toList,
               deleteAfter := request.validUntil.toNat }] }
  | alreadyDeleted (request : AckRequest) (now : UInt64)
      (timely : Timely 300 request.validUntil now)
      (authorised : m.Authorised P .receiveKey request.signingBytes request.signature now)
      (notFound : (m.sweep now.toNat).findMessage request.messageId = none) :
      Effect P m (.acknowledge request now) (.ok (.acknowledged .alreadyDeleted))
        (m.sweep now.toNat)
  | deleted (request : AckRequest) (now : UInt64)
      (timely : Timely 300 request.validUntil now)
      (authorised : m.Authorised P .receiveKey request.signingBytes request.signature now)
      (row : MessageRow) (found : (m.sweep now.toNat).findMessage request.messageId = some row)
      (sameDigest : digest P row.ciphertext = request.packetHash) :
      Effect P m (.acknowledge request now) (.ok (.acknowledged .deleted))
        ((m.sweep now.toNat).bury request.queueId request.messageId (now.toNat + 604800))
  | mailboxDeleted (request : DeleteMailboxRequest) (now : UInt64)
      (timely : Timely 300 request.validUntil now)
      (authorised : m.Authorised P .manageKey request.signingBytes request.signature now) :
      Effect P m (.deleteMailbox request now) (.ok (.mailboxDeleted (m.rows.length = 1)))
        (m.sweep now.toNat).retire

theorem register_effect {request : MailboxRegistration P} {now : UInt64} {fresh : Bool}
    (h : m.register P request now = .ok (fresh, m')) :
    Effect P m (.register request now) (.ok (.registered fresh)) m' := by
  simp only [register, bind_eq_ok, rejectIf_eq_ok, purge_eq_ok, validateRequestTime_eq_ok] at h
  obtain ⟨_, ⟨future, near⟩, _, signed, _, ⟨representable, rfl⟩, _, unretired, h⟩ := h
  simp only [Bool.not_eq_false, Bool.not_eq_true, retired_sweep] at signed unretired
  split at h
  · rename_i row live
    simp only [bind_eq_ok, rejectIf_eq_ok, Decidable.not_not, toI64_eq_ok, Except.ok.injEq,
      Prod.mk.injEq] at h
    obtain ⟨_, same, _, ⟨_, rfl⟩, rfl, rfl⟩ := h
    exact .registeredAgain request now ⟨future, near⟩ representable signed unretired row live same
  · rename_i absent
    simp only [bind_eq_ok, rejectIf_eq_ok, toI64_eq_ok, Except.ok.injEq, Prod.mk.injEq] at h
    obtain ⟨_, ⟨_, rfl⟩, _, unused, _, ⟨_, rfl⟩, rfl, rfl⟩ := h
    exact .registered request now ⟨future, near⟩ representable signed unretired
      (List.head?_eq_none_iff.mp absent) (by simpa using unused)

theorem enqueue_effect {request : SendRequest} {now : UInt64} {outcome : EnqueueOutcome}
    (h : m.enqueue P request now = .ok (outcome, m')) :
    Effect P m (.enqueue request now) (.ok (.enqueued outcome)) m' := by
  simp only [enqueue, bind_eq_ok, rejectIf_eq_ok, purge_eq_ok, validateMessageExpiry_eq_ok,
    toI64_eq_ok] at h
  obtain ⟨_, size, _, ⟨future, near⟩, _, ⟨representable, rfl⟩, key, hasKey, _, verified, _,
    ⟨_, rfl⟩, _, notGone, h⟩ := h
  have authorised : m.Authorised P .sendKey (request.signingBytes P) request.signature now :=
    ⟨representable, key, hasKey, by simpa using verified⟩
  split at h
  · rename_i row found
    split at h
    · rename_i samePacket
      simp only [bind_eq_ok, rejectIf_eq_ok, toI64_eq_ok, ne_eq, Decidable.not_not,
        Except.ok.injEq, Prod.mk.injEq] at h
      obtain ⟨_, ⟨_, rfl⟩, _, sameExpiry, rfl, rfl⟩ := h
      exact .duplicate request now ⟨future, near⟩ authorised row found samePacket sameExpiry
    · cases h
  · rename_i none
    simp only [bind_eq_ok, toI64_eq_ok, Except.ok.injEq, Prod.mk.injEq] at h
    obtain ⟨_, ⟨_, rfl⟩, rfl, rfl⟩ := h
    have bounded : request.packet ≠ [] ∧ request.packet.length ≤ maxPacketBytes := by
      simpa only [not_or, Nat.not_lt] using size
    refine .stored request now bounded ⟨future, near⟩ authorised ?_ ?_
    · intro row member same
      simp only [List.any_eq_true, not_exists, not_and, mem_tombstones_sweep, decide_eq_true_eq]
        at notGone
      by_contra later
      exact notGone row ⟨member, by omega⟩ same (by omega)
    · intro row member same
      have absent := List.find?_eq_none.mp none row
      simp only [mem_messages_sweep, decide_eq_true_eq] at absent
      by_contra later
      exact absent ⟨member, by omega⟩ same

theorem recordNonce_eq_ok {queueId : QueueId} {role : Role} {nonce : Nonce}
    {deleteAfter : UInt64} :
    m.recordNonce queueId role nonce deleteAfter = .ok m' ↔
      deleteAfter.toNat < 2 ^ 63 ∧
      (∀ row ∈ m.requestNonces, row.role = role → row.nonce ≠ nonce.toList) ∧
      m' = { m with
        requestNonces := m.requestNonces ++
          [{ queueId := queueId.toList, role, nonce := nonce.toList,
             deleteAfter := deleteAfter.toNat }] } := by
  simp only [recordNonce, bind_eq_ok, toI64_eq_ok, rejectIf_eq_ok, Except.ok.injEq,
    List.any_eq_true, not_exists, not_and, decide_eq_true_eq]
  constructor
  · rintro ⟨_, ⟨fits, rfl⟩, _, unused, rfl⟩
    exact ⟨fits, unused, rfl⟩
  · rintro ⟨fits, unused, rfl⟩
    exact ⟨_, ⟨fits, rfl⟩, (), unused, rfl⟩

/-- The second selection of a fetch finds nothing left to drop. -/
theorem filter_messages_sweep (m : Mailbox) (now : Int) :
    (m.sweep now).messages.filter (fun row => now < row.expiresAt) = (m.sweep now).messages := by
  simp [sweep, List.filter_filter]

theorem fetch_effect {request : FetchRequest} {now : UInt64} {envelopes : List StoredEnvelope}
    (h : m.fetch P request now = .ok (envelopes, m')) :
    Effect P m (.fetch request now) (.ok (.fetched envelopes)) m' := by
  simp only [fetch, bind_eq_ok, rejectIf_eq_ok, purge_eq_ok, validateRequestTime_eq_ok,
    toI64_eq_ok, recordNonce_eq_ok, Except.ok.injEq, Prod.mk.injEq] at h
  obtain ⟨_, ⟨future, near⟩, _, ⟨representable, rfl⟩, key, hasKey, _, verified, _,
    ⟨_, unused, rfl⟩, _, ⟨_, rfl⟩, _, decoded, rfl, rfl⟩ := h
  rw [filter_messages_sweep] at decoded
  have authorised : m.Authorised P .receiveKey request.signingBytes request.signature now :=
    ⟨representable, key, hasKey, by simpa using verified⟩
  refine Effect.fetched (m := m) request now ⟨future, near⟩ authorised ?_ _ decoded
  intro row member sameRole sameNonce
  by_contra later
  exact unused row (mem_requestNonces_sweep.mpr ⟨member, by omega⟩) sameRole sameNonce

theorem acknowledge_effect {request : AckRequest} {now : UInt64} {outcome : AckOutcome}
    (h : m.acknowledge P request now = .ok (outcome, m')) :
    Effect P m (.acknowledge request now) (.ok (.acknowledged outcome)) m' := by
  simp only [acknowledge, bind_eq_ok, rejectIf_eq_ok, purge_eq_ok, validateRequestTime_eq_ok] at h
  obtain ⟨_, ⟨future, near⟩, _, ⟨representable, rfl⟩, key, hasKey, _, verified, h⟩ := h
  have authorised : m.Authorised P .receiveKey request.signingBytes request.signature now :=
    ⟨representable, key, hasKey, by simpa using verified⟩
  split at h
  · rename_i notFound
    simp only [bind_eq_ok, rejectIf_eq_ok, Except.ok.injEq, Prod.mk.injEq] at h
    obtain ⟨_, _, rfl, rfl⟩ := h
    exact .alreadyDeleted request now ⟨future, near⟩ authorised notFound
  · rename_i row found
    simp only [bind_eq_ok, rejectIf_eq_ok, Except.ok.injEq, Prod.mk.injEq, Decidable.not_not,
      ne_eq] at h
    obtain ⟨_, sameDigest, _, deadline, rfl, rfl⟩ := h
    rw [tombstone_deadline deadline]
    exact .deleted request now ⟨future, near⟩ authorised row found sameDigest

theorem deleteMailbox_effect {request : DeleteMailboxRequest} {now : UInt64} {deleted : Bool}
    (h : m.deleteMailbox P request now = .ok (deleted, m')) :
    Effect P m (.deleteMailbox request now) (.ok (.mailboxDeleted deleted)) m' := by
  simp only [deleteMailbox, bind_eq_ok, rejectIf_eq_ok, purge_eq_ok, validateRequestTime_eq_ok,
    recordNonce_eq_ok, Except.ok.injEq, Prod.mk.injEq] at h
  obtain ⟨_, ⟨future, near⟩, _, ⟨representable, rfl⟩, key, hasKey, _, verified, _,
    ⟨_, _, rfl⟩, _, _, rfl, rfl⟩ := h
  exact .mailboxDeleted request now ⟨future, near⟩
    ⟨representable, key, hasKey, by simpa using verified⟩

theorem transact_effect {α : Type} {wrap : α → Answer} {call : Call P}
    {body : Except LabError (α × Mailbox)}
    (succeeds : ∀ value m', body = .ok (value, m') → Effect P m call (.ok (wrap value)) m') :
    Effect P m call (m.transact wrap body).1 (m.transact wrap body).2 := by
  cases body with
  | error e => exact .refused call e
  | ok result => exact succeeds result.1 result.2 rfl

/-- The list of outcomes is complete. -/
theorem step_effect (m : Mailbox) (call : Call P) :
    Effect P m call (m.step P call).1 (m.step P call).2 := by
  cases call with
  | register => exact transact_effect fun _ _ h => register_effect h
  | enqueue => exact transact_effect fun _ _ h => enqueue_effect h
  | fetch => exact transact_effect fun _ _ h => fetch_effect h
  | acknowledge => exact transact_effect fun _ _ h => acknowledge_effect h
  | deleteMailbox => exact transact_effect fun _ _ h => deleteMailbox_effect h
  | purgeExpired | queuedMessageCountAt | reopen => exact .refused _ _

/-- Whoever passed a signature check found a mailbox row. -/
theorem Authorised.live {column : KeyColumn} {message : Bytes} {signature : Ed25519Signature}
    {now : UInt64} (authorised : m.Authorised P column message signature now) : m.rows ≠ [] := by
  obtain ⟨key, hasKey, _⟩ := authorised.signed
  obtain ⟨row, rest, rows, _⟩ := key_eq_ok hasKey
  rw [rows]
  exact List.cons_ne_nil row rest

@[simp] theorem mem_messages_bury {queueId : QueueId} {messageId : MessageId} {deleteAfter : Int}
    {row : MessageRow} :
    row ∈ (m.bury queueId messageId deleteAfter).messages ↔
      row ∈ m.messages ∧ row.messageId ≠ messageId.toList := by
  simp [bury]

/-- The buried message has a tombstone with the new deadline. -/
theorem exists_tombstone_bury (m : Mailbox) (queueId : QueueId) (messageId : MessageId)
    (deleteAfter : Int) :
    ∃ row ∈ (m.bury queueId messageId deleteAfter).tombstones,
      row.messageId = messageId.toList ∧ row.deleteAfter = deleteAfter := by
  unfold bury
  by_cases present : m.tombstones.any (fun row => row.messageId = messageId.toList) = true
  · simp only [if_pos present]
    obtain ⟨row, member, same⟩ := List.any_eq_true.mp present
    have same : row.messageId = messageId.toList := by simpa using same
    exact ⟨{ row with deleteAfter }, List.mem_map.mpr ⟨row, member, if_pos same⟩, same, rfl⟩
  · simp only [if_neg present]
    exact ⟨_, List.mem_append_right _ (List.mem_singleton.mpr rfl), rfl, rfl⟩

/-- The other tombstones stay. -/
theorem mem_tombstones_bury_of_ne {queueId : QueueId} {messageId : MessageId} {deleteAfter : Int}
    {row : TombstoneRow} (member : row ∈ m.tombstones) (other : row.messageId ≠ messageId.toList) :
    row ∈ (m.bury queueId messageId deleteAfter).tombstones := by
  unfold bury
  split
  · exact List.mem_map.mpr ⟨row, member, if_neg other⟩
  · exact List.mem_append_left _ member

section NoteRegistration

variable (queueId : QueueId) (nonce : Nonce) (deleteAfter : Int)

/-! Remembering a registration nonce touches nothing else. -/

@[simp] theorem rows_noteRegistration :
    (m.noteRegistration queueId nonce deleteAfter).rows = m.rows := by
  rw [noteRegistration]
  split <;> rfl

@[simp] theorem messages_noteRegistration :
    (m.noteRegistration queueId nonce deleteAfter).messages = m.messages := by
  rw [noteRegistration]
  split <;> rfl

@[simp] theorem tombstones_noteRegistration :
    (m.noteRegistration queueId nonce deleteAfter).tombstones = m.tombstones := by
  rw [noteRegistration]
  split <;> rfl

@[simp] theorem requestNonces_noteRegistration :
    (m.noteRegistration queueId nonce deleteAfter).requestNonces = m.requestNonces := by
  rw [noteRegistration]
  split <;> rfl

end NoteRegistration

/-- A mailbox that was deleted: nothing but registration nonces is left of it,
and its hash is retired. -/
structure Gone (m : Mailbox) : Prop where
  noRow : m.rows = []
  noMessages : m.messages = []
  noTombstones : m.tombstones = []
  noNonces : m.requestNonces = []
  retired : m.retired = true

theorem Gone.sweep (gone : m.Gone) (now : Int) : (m.sweep now).Gone where
  noRow := gone.noRow
  noMessages := by simp [Mailbox.sweep, gone.noMessages]
  noTombstones := by simp [Mailbox.sweep, gone.noTombstones]
  noNonces := by simp [Mailbox.sweep, gone.noNonces]
  retired := gone.retired

/-- A deleted mailbox refuses everything. -/
theorem Gone.refuses (gone : m.Gone) {call : Call P} {reply : Reply}
    (effect : Effect P m call reply m') : (∃ e, reply = .error e) ∧ m' = m := by
  cases effect with
  | refused _ e => exact ⟨⟨e, rfl⟩, rfl⟩
  | registered _ _ _ _ _ unretired =>
      rw [gone.retired] at unretired
      cases unretired
  | registeredAgain _ _ _ _ _ unretired =>
      rw [gone.retired] at unretired
      cases unretired
  | stored _ _ _ _ authorised => exact absurd gone.noRow authorised.live
  | duplicate _ _ _ authorised => exact absurd gone.noRow authorised.live
  | fetched _ _ _ authorised => exact absurd gone.noRow authorised.live
  | alreadyDeleted _ _ _ authorised => exact absurd gone.noRow authorised.live
  | deleted _ _ _ authorised => exact absurd gone.noRow authorised.live
  | mailboxDeleted _ _ _ authorised => exact absurd gone.noRow authorised.live

theorem Gone.stands (gone : m.Gone) {collision : Prop} {now : UInt64}
    (bystander : Bystander collision now m m') : m'.Gone := by
  cases bystander with
  | untouched => exact gone
  | swept => exact gone.sweep _
  | retired => exact { gone.sweep now.toNat with retired := rfl }

theorem gone_retire (m : Mailbox) : m.retire.Gone := ⟨rfl, rfl, rfl, rfl, rfl⟩

end Mailbox

namespace Relay

/-- A call has one of the listed outcomes on the mailbox it is addressed to. -/
theorem own_effect (r : Relay) {q : QueueId} (call : Call P) (own : call.queueId? = some q) :
    Mailbox.Effect P (r.mailbox P q) call (r.step P call).1 ((r.step P call).2.mailbox P q) := by
  obtain ⟨reply, view⟩ := r.step_own own
  rw [reply, view]
  exact (r.mailbox P q).step_effect call

/-- One step of the relay, seen from the mailbox of `q`. -/
theorem step_view {r : Relay} (current : r.Current) (q : QueueId) (call : Call P) :
    (call.queueId? = some q ∧
      Mailbox.Effect P (r.mailbox P q) call (r.step P call).1 ((r.step P call).2.mailbox P q)) ∨
    (call.queueId? ≠ some q ∧
      Mailbox.Bystander (Collides P q) call.now (r.mailbox P q)
        ((r.step P call).2.mailbox P q)) := by
  by_cases own : call.queueId? = some q
  · exact .inl ⟨own, r.own_effect call own⟩
  · exact .inr ⟨own, step_other current own⟩

/-- What every step of one mailbox preserves, a whole run preserves. -/
theorem run_mailbox {q : QueueId} (invariant : Mailbox → Prop)
    (keeps : ∀ {m call reply m'}, invariant m → Mailbox.Effect P m call reply m' → invariant m')
    (stands : ∀ {m now m'}, invariant m → Mailbox.Bystander (Collides P q) now m m' →
      invariant m')
    {r : Relay} (current : r.Current) (initial : invariant (r.mailbox P q))
    (calls : List (Call P)) :
    invariant ((Machine.run (Relay.step P) r calls).mailbox P q) := by
  have both := Machine.invariant_run
    (fun r : Relay => r.Current ∧ invariant (r.mailbox P q))
    (fun r call h => ⟨current_step h.1 call, by
      obtain ⟨_, effect⟩ | ⟨_, bystander⟩ := step_view h.1 q call
      · exact keeps h.2 effect
      · exact stands h.2 bystander⟩)
    ⟨current, initial⟩ calls
  exact both.2

/-- Every reply in a history is the outcome of a step of the mailbox addressed. -/
theorem history_effect {calls : List (Call P)} {entry : Call P × Reply}
    (member : entry ∈ Relay.history P calls) {q : QueueId} (own : entry.1.queueId? = some q) :
    ∃ before later m m', calls = before ++ entry.1 :: later ∧
      m = (Relay.after P before).mailbox P q ∧
      m' = (Relay.after P (before ++ [entry.1])).mailbox P q ∧
      Mailbox.Effect P m entry.1 entry.2 m' := by
  obtain ⟨before, later, split, reply⟩ := Machine.mem_trace member
  refine ⟨before, later, _, _, split, rfl, rfl, ?_⟩
  rw [reply, after_concat]
  exact own_effect _ entry.1 own

end Relay

end SecureMessenger
