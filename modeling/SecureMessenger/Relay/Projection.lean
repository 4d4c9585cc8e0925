import SecureMessenger.Relay.Mailbox

/-!
# The relay is a family of independent mailboxes

First what each table statement does to the mailbox of an arbitrary queue, then
the operations: in lockstep with the mailbox they are addressed to, and at most
a sweep for every other mailbox.
-/

namespace SecureMessenger

open Fallible

variable {P : Primitives}

namespace Tables

variable {t t' : Tables} {q : QueueId}

theorem head_rows_mailbox (t : Tables) (q : QueueId) :
    (t.mailbox P q).rows.head? = t.mailboxes.find? (fun row => row.queueId = q.toList) := by
  rw [mailbox, List.head?_filter]
  rfl

theorem hasMailbox_eq (t : Tables) (q : QueueId) :
    t.hasMailbox q.toList = !(t.mailbox P q).rows.isEmpty := by
  rw [Bool.eq_iff_iff]
  simp [hasMailbox, Table.exists?, mailbox, List.filter_eq_nil_iff]

theorem find_message_mailbox (t : Tables) (q : QueueId) (messageId : MessageId) :
    t.messages.find? (fun row => row.queueId = q.toList ∧ row.messageId = messageId.toList) =
      (t.mailbox P q).findMessage messageId := by
  simp only [Table.find?, Mailbox.findMessage, mailbox, List.find?_filter, Bool.decide_and,
    Bool.decide_eq_true]

theorem any_tombstone_mailbox (t : Tables) (q : QueueId) (p : TombstoneRow → Prop)
    [DecidablePred p] :
    t.tombstones.exists? (fun row => row.queueId = q.toList ∧ p row) =
      (t.mailbox P q).tombstones.any (fun row => p row) := by
  simp only [Table.exists?, mailbox, List.any_filter, Bool.decide_and]

/-- The sweep acts on every mailbox separately. -/
theorem purgeExpiredIn_mailbox (t : Tables) (now : UInt64) (q : QueueId) :
    Lockstep (fun a m => a.2.mailbox P q = m) (purgeExpiredIn t now)
      ((t.mailbox P q).purge now) := by
  unfold purgeExpiredIn Mailbox.purge
  apply Lockstep.bind_same
  intro time _
  apply Lockstep.ok
  have kept : ∀ deadline : Int, (!decide (deadline ≤ time)) = decide (time < deadline) := by
    intro deadline
    rw [← decide_not, decide_eq_decide, Int.not_le]
  simp [mailbox, Mailbox.sweep, List.filter_filter, Bool.and_comm, kept]

theorem insertMailbox_mailbox (row : MailboxRow) (fresh : (t.mailbox P q).rows = [])
    (own : row.queueId = q.toList) (sound : row.checks = true) :
    ∃ t', t.insertMailbox row = .ok t' ∧
      t'.mailbox P q = { t.mailbox P q with rows := [row] } := by
  have unused : t.mailboxes.exists? (fun other => other.key = row.key) = false := by
    have := t.hasMailbox_eq (P := P) q
    rw [fresh] at this
    simpa [MailboxRow.key, own, hasMailbox] using this
  refine ⟨{ t with mailboxes := t.mailboxes.append row }, ?_, ?_⟩
  · simp [insertMailbox, sound, rejectIf, Table.insertUnique, unused]
  · have rows : t.mailboxes.contents.filter (fun row => row.queueId = q.toList) = [] := fresh
    simp [mailbox, List.filter_append, own, rows]

theorem insertMailbox_other {row : MailboxRow} (h : t.insertMailbox row = .ok t')
    (other : row.queueId ≠ q.toList) : t'.mailbox P q = t.mailbox P q := by
  simp only [insertMailbox, bind_eq_ok, rejectIf_eq_ok, Table.insertUnique] at h
  obtain ⟨_, _, h⟩ := h
  split at h
  · rename_i inserted
    split at inserted
    · cases inserted
    · cases inserted
      cases h
      simp [mailbox, List.filter_append, other]
  · cases h

theorem insertMessage_mailbox (row : MessageRow) (live : (t.mailbox P q).rows ≠ [])
    (own : row.queueId = q.toList) (sound : row.checks = true)
    (fresh : ∀ other ∈ (t.mailbox P q).messages, other.messageId ≠ row.messageId) :
    ∃ t', t.insertMessage row = .ok t' ∧
      t'.mailbox P q =
        { t.mailbox P q with messages := (t.mailbox P q).messages ++ [row] } := by
  have parent : t.hasMailbox row.queueId = true := by
    rw [own, t.hasMailbox_eq (P := P) q]
    simpa using live
  have unused : t.messages.exists? (fun other => other.key = row.key) = false := by
    simp only [Table.exists?, MessageRow.key, Prod.mk.injEq, List.any_eq_false,
      decide_eq_true_eq, not_and, own]
    intro other member same
    exact fresh other (List.mem_filter.mpr ⟨member, by simpa using same⟩)
  refine ⟨{ t with messages := t.messages.append row }, ?_, ?_⟩
  · simp [insertMessage, sound, parent, rejectIf, Table.insertUnique, unused]
  · simp [mailbox, List.filter_append, own]

theorem insertMessage_other {row : MessageRow} (h : t.insertMessage row = .ok t')
    (other : row.queueId ≠ q.toList) : t'.mailbox P q = t.mailbox P q := by
  simp only [insertMessage, bind_eq_ok, rejectIf_eq_ok, Table.insertUnique] at h
  obtain ⟨_, _, _, _, h⟩ := h
  split at h
  · rename_i inserted
    split at inserted
    · cases inserted
    · cases inserted
      cases h
      simp [mailbox, List.filter_append, other]
  · cases h

theorem deleteMessage_other (t : Tables) {queueId messageId : Bytes}
    (other : queueId ≠ q.toList) :
    (t.deleteMessage queueId messageId).mailbox P q = t.mailbox P q := by
  have kept : ∀ row : MessageRow, row.queueId = q.toList → row.queueId ≠ queueId := by
    intro row same same'
    exact other (same'.symm.trans same)
  simp only [deleteMessage, mailbox, Table.deleteWhere, Table.contents_keep, List.filter_filter,
    Mailbox.mk.injEq, and_true, true_and]
  apply List.filter_congr
  intro row _
  by_cases own : row.queueId = q.toList
  · simp [own, Ne.symm other]
  · simp [own]

theorem upsert_tombstone_filter (t : Tables) (q : QueueId) (messageId : MessageId)
    (deleteAfter : Int) :
    (t.tombstones.upsert TombstoneRow.key
        { queueId := q.toList, messageId := messageId.toList, deleteAfter }
        (fun old => { old with deleteAfter })).contents.filter
          (fun row => row.queueId = q.toList) =
      ((t.mailbox P q).bury q messageId deleteAfter).tombstones := by
  have present : t.tombstones.exists? (fun row =>
        row.key = TombstoneRow.key
          { queueId := q.toList, messageId := messageId.toList, deleteAfter }) =
      (t.mailbox P q).tombstones.any (fun row => row.messageId = messageId.toList) := by
    simp only [TombstoneRow.key, Prod.mk.injEq]
    exact t.any_tombstone_mailbox q _
  rw [Table.filter_upsert (by intro row; rfl), present, Mailbox.bury]
  congr 1
  · apply List.map_congr_left
    intro row member
    have own : row.queueId = q.toList := by simpa using (List.mem_filter.mp member).2
    simp [TombstoneRow.key, own]
  · simp [mailbox]

/-- Deleting a message and inserting its tombstone buries it in its mailbox. -/
theorem upsertTombstone_mailbox (t : Tables) (q : QueueId) (messageId : MessageId)
    (deleteAfter : Int) (live : (t.mailbox P q).rows ≠ []) :
    ∃ t', (t.deleteMessage q.toList messageId.toList).upsertTombstone
        { queueId := q.toList, messageId := messageId.toList, deleteAfter } = .ok t' ∧
      t'.mailbox P q = (t.mailbox P q).bury q messageId deleteAfter := by
  have parent : (t.deleteMessage q.toList messageId.toList).hasMailbox q.toList = true := by
    change t.hasMailbox q.toList = true
    rw [t.hasMailbox_eq (P := P) q]
    simpa using live
  refine ⟨{ t.deleteMessage q.toList messageId.toList with
    tombstones := t.tombstones.upsert TombstoneRow.key
      { queueId := q.toList, messageId := messageId.toList, deleteAfter }
      (fun old => { old with deleteAfter }) }, ?_, ?_⟩
  · rw [upsertTombstone, rejectIf_of_not (by simp [TombstoneRow.checks, messageId.length_toList]),
      rejectIf_of_not (by simp [parent])]
    rfl
  · apply Mailbox.ext
    case tombstones => exact t.upsert_tombstone_filter q messageId deleteAfter
    case messages =>
      simp only [deleteMessage, mailbox, Mailbox.bury, Table.deleteWhere, Table.contents_keep,
        List.filter_filter]
      apply List.filter_congr
      intro row _
      by_cases own : row.queueId = q.toList <;> simp [own]
    all_goals rfl

theorem upsertTombstone_other {row : TombstoneRow} (h : t.upsertTombstone row = .ok t')
    (other : row.queueId ≠ q.toList) : t'.mailbox P q = t.mailbox P q := by
  simp only [upsertTombstone, bind_eq_ok, rejectIf_eq_ok, Except.ok.injEq] at h
  obtain ⟨_, _, _, _, rfl⟩ := h
  simp only [mailbox, Mailbox.mk.injEq, and_true, true_and]
  rw [Table.filter_upsert (by intro row; rfl)]
  split
  · nth_rewrite 2 [← List.map_id (List.filter _ _)]
    apply List.map_congr_left
    intro old member
    have own : old.queueId = q.toList := by simpa using (List.mem_filter.mp member).2
    simp [TombstoneRow.key, own, Ne.symm other]
  · simp [other]

/-- Recording a nonce in the tables records it in the mailbox. -/
theorem recordNonce_mailbox (t : Tables) (q : QueueId) (role : Role) (nonce : Nonce)
    (deleteAfter : UInt64) (live : (t.mailbox P q).rows ≠ []) :
    Lockstep (fun t' m => t'.mailbox P q = m) (recordNonce t q role nonce deleteAfter)
      ((t.mailbox P q).recordNonce q role nonce deleteAfter) := by
  have parent : t.hasMailbox q.toList = true := by
    rw [t.hasMailbox_eq (P := P) q]
    simpa using live
  unfold recordNonce Mailbox.recordNonce
  apply Lockstep.bind_same
  intro deadline _
  have used : t.requestNonces.exists? (fun row =>
        row.key = RequestNonceRow.key
          { queueId := q.toList, role, nonce := nonce.toList, deleteAfter := deadline }) =
      (t.mailbox P q).requestNonces.any
        (fun row => row.role = role ∧ row.nonce = nonce.toList) := by
    simp only [Table.exists?, RequestNonceRow.key, Prod.mk.injEq, mailbox, List.any_filter,
      Bool.decide_and]
  simp only [insertRequestNonce, RequestNonceRow.checks, nonce.length_toList, decide_true,
    if_true, Table.insertOrIgnore, used]
  by_cases reused : (t.mailbox P q).requestNonces.any
      (fun row => row.role = role ∧ row.nonce = nonce.toList) = true
  · rw [if_pos reused, rejectIf_of reused]
    exact .error _
  · rw [if_neg reused, rejectIf_of_not reused]
    simp only [rejectIf, parent]
    apply Lockstep.ok
    simp [mailbox, List.filter_append]

theorem recordNonce_other {queueId : QueueId} {role : Role} {nonce : Nonce} {deleteAfter : UInt64}
    (h : recordNonce t queueId role nonce deleteAfter = .ok t') (other : queueId ≠ q) :
    t'.mailbox P q = t.mailbox P q := by
  simp only [recordNonce, insertRequestNonce, RequestNonceRow.checks, nonce.length_toList,
    decide_true, if_true, Table.insertOrIgnore, bind_eq_ok, rejectIf_eq_ok, Except.ok.injEq] at h
  obtain ⟨_, _, _, ⟨_, _, rfl⟩, _, _, rfl⟩ := h
  split
  · rfl
  · simp [mailbox, List.filter_append, other]

/-- Inserting a registration nonce reports one row unless the nonce is remembered. -/
theorem insertRegistrationNonce_mailbox (t : Tables) (q : QueueId) (nonce : Nonce)
    (deleteAfter : Int) :
    (t.insertRegistrationNonce
        { queueId := q.toList, nonce := nonce.toList, deleteAfter }).1 =
      (if (t.mailbox P q).hasRegistrationNonce nonce then 0 else 1) ∧
    (t.insertRegistrationNonce
        { queueId := q.toList, nonce := nonce.toList, deleteAfter }).2.mailbox P q =
      (t.mailbox P q).noteRegistration q nonce deleteAfter := by
  have used : t.registrationNonces.exists? (fun row =>
        row.key = RegistrationNonceRow.key
          { queueId := q.toList, nonce := nonce.toList, deleteAfter }) =
      (t.mailbox P q).hasRegistrationNonce nonce := by
    simp only [Table.exists?, RegistrationNonceRow.key, Prod.mk.injEq,
      Mailbox.hasRegistrationNonce, mailbox, List.any_filter, Bool.decide_and]
  have sound : RegistrationNonceRow.checks
      { queueId := q.toList, nonce := nonce.toList, deleteAfter } = true := by
    simp [RegistrationNonceRow.checks, q.length_toList, nonce.length_toList]
  simp only [insertRegistrationNonce, sound, if_true, Table.insertOrIgnore, used,
    Mailbox.noteRegistration]
  split
  · exact ⟨rfl, rfl⟩
  · refine ⟨rfl, ?_⟩
    simp [mailbox, List.filter_append]

theorem insertRegistrationNonce_other (t : Tables) {row : RegistrationNonceRow}
    (other : row.queueId ≠ q.toList) :
    (t.insertRegistrationNonce row).2.mailbox P q = t.mailbox P q := by
  simp only [insertRegistrationNonce, Table.insertOrIgnore]
  split
  · split
    · rfl
    · simp [mailbox, List.filter_append, other]
  · rfl

/-- Retiring a hash retires every queue with that digest, and no other. -/
theorem insertRetiredQueue_mailbox (t : Tables) (hash : FixedBytes 32) (retiredAt : Int)
    (q : QueueId) :
    (t.insertRetiredQueue { queueHash := hash.toList, retiredAt }).2.mailbox P q =
      { t.mailbox P q with retired := (t.mailbox P q).retired || (hash = digest P q.toList) } := by
  have sound : RetiredQueueRow.checks { queueHash := hash.toList, retiredAt } = true := by
    simp [RetiredQueueRow.checks, hash.length_toList]
  simp only [insertRetiredQueue, sound, if_true, Table.insertOrIgnore]
  split
  · rename_i known
    simp only [mailbox, Mailbox.mk.injEq, true_and]
    by_cases same : hash = digest P q.toList
    · simp only [RetiredQueueRow.key, same] at known
      simp [known]
    · simp [same]
  · simp [mailbox, Table.exists?]

theorem deleteMailboxRow_mailbox (t : Tables) (q : QueueId) :
    (t.deleteMailboxRow q.toList).1 = (t.mailbox P q).rows.length ∧
    (t.deleteMailboxRow q.toList).2.mailbox P q =
      { t.mailbox P q with rows := [], messages := [], tombstones := [], requestNonces := [] } := by
  constructor
  · simp [deleteMailboxRow, Table.deleteWhere, mailbox, List.countP_eq_length_filter]
  · simp [deleteMailboxRow, Table.deleteWhere, mailbox, List.filter_filter]

theorem deleteMailboxRow_other (t : Tables) {queueId : QueueId} (other : queueId ≠ q) :
    (t.deleteMailboxRow queueId.toList).2.mailbox P q = t.mailbox P q := by
  have distinct : ∀ id : Bytes, (decide (id = q.toList) && !decide (id = queueId.toList)) =
      decide (id = q.toList) := by
    intro id
    by_cases own : id = q.toList
    · simp [own, Ne.symm other]
    · simp [own]
  simp [deleteMailboxRow, Table.deleteWhere, mailbox, List.filter_filter, distinct]

theorem mailboxKey_mailbox (t : Tables) (q : QueueId) (column : KeyColumn) :
    mailboxKey P t q column = (t.mailbox P q).key P column := by
  cases found : t.mailboxes.find? (fun row => row.queueId = q.toList) with
  | none => simp only [mailboxKey, Mailbox.key, head_rows_mailbox, found]
  | some row => simp only [mailboxKey, Mailbox.key, head_rows_mailbox, found]

/-- The transaction's answer and the mailbox of `q` it commits. -/
def Matches {α : Type} (P : Primitives) (q : QueueId) (committed : Committed α)
    (answer : α × Mailbox) : Prop :=
  committed.1 = answer.1 ∧ committed.2.2.mailbox P q = answer.2

theorem registerIn_mailbox (t : Tables) (request : MailboxRegistration P) (now : UInt64) :
    Lockstep (Matches P request.queueId) (registerIn P t request now)
      ((t.mailbox P request.queueId).register P request now) := by
  unfold registerIn Mailbox.register
  apply Lockstep.bind_same
  intro _ _
  apply Lockstep.bind_same
  intro _ _
  apply Lockstep.bind (t.purgeExpiredIn_mailbox now request.queueId)
  rintro ⟨_, t⟩ _ rfl
  apply Lockstep.bind_same
  intro _ _
  rw [← head_rows_mailbox]
  cases found : (t.mailbox P request.queueId).rows.head? with
  | some row =>
      apply Lockstep.bind_same
      intro _ _
      apply Lockstep.bind_same
      intro validUntil _
      obtain ⟨_, noted⟩ := t.insertRegistrationNonce_mailbox (P := P) request.queueId
        request.nonce validUntil
      exact .ok ⟨rfl, noted⟩
  | none =>
      apply Lockstep.bind_same
      intro validUntil _
      obtain ⟨recorded, noted⟩ := t.insertRegistrationNonce_mailbox (P := P) request.queueId
        request.nonce validUntil
      generalize t.insertRegistrationNonce _ = outcome at recorded noted ⊢
      obtain ⟨count, t'⟩ := outcome
      by_cases reused : (t.mailbox P request.queueId).hasRegistrationNonce request.nonce = true
      · rw [if_pos reused] at recorded
        subst recorded
        rw [rejectIf_of reused]
        exact .error _
      · rw [if_neg reused] at recorded
        subst recorded
        rw [rejectIf_of_not reused]
        simp only [rejectIf_of_not (not_not_intro rfl), ok_bind]
        apply Lockstep.bind_same
        intro createdAt _
        have fresh : (t.mailbox P request.queueId).rows = [] := List.head?_eq_none_iff.mp found
        have fresh' : (t'.mailbox P request.queueId).rows = [] := by
          rw [noted, Mailbox.noteRegistration]
          split <;> exact fresh
        obtain ⟨t'', inserted, view⟩ := insertMailbox_mailbox
          (Mailbox.rowOf request createdAt) fresh' rfl
          (by simp [MailboxRow.checks, Mailbox.rowOf, request.queueId.length_toList])
        change Lockstep _ (insertMailbox _ (Mailbox.rowOf request createdAt) >>= _) _
        rw [inserted]
        refine .ok ⟨rfl, ?_⟩
        rw [view, noted]

/-- A key is found only in a live mailbox. -/
theorem live_of_key {m : Mailbox} {column : KeyColumn} {key : Ed25519PublicKey P}
    (h : m.key P column = .ok key) : m.rows ≠ [] := by
  intro none
  simp [Mailbox.key, none] at h

/-- The check that the signed operations share: the signature verifies under a key of the
mailbox. What follows happens in a live mailbox. -/
theorem verified_mailbox {α : Type} (t : Tables) {q : QueueId} {column : KeyColumn}
    {message : Bytes} {signature : Ed25519Signature} {body : Except LabError (Committed α)}
    {body' : Except LabError (α × Mailbox)}
    (rest : (t.mailbox P q).rows ≠ [] → Lockstep (Matches P q) body body') :
    Lockstep (Matches P q)
      (do
        let key ← mailboxKey P t q column
        rejectIf (key.verify message signature = false) .unauthorized
        body)
      (do
        let key ← (t.mailbox P q).key P column
        rejectIf (key.verify message signature = false) .unauthorized
        body') := by
  rw [mailboxKey_mailbox]
  apply Lockstep.bind_same
  intro key hasKey
  apply Lockstep.bind_same
  intro _ _
  exact rest (live_of_key hasKey)

theorem enqueueIn_mailbox (t : Tables) (request : SendRequest) (now : UInt64) :
    Lockstep (Matches P request.queueId) (enqueueIn P t request now)
      ((t.mailbox P request.queueId).enqueue P request now) := by
  unfold enqueueIn Mailbox.enqueue
  apply Lockstep.bind_same
  intro _ _
  apply Lockstep.bind_same
  intro _ _
  apply Lockstep.bind (t.purgeExpiredIn_mailbox now request.queueId)
  rintro ⟨_, t⟩ _ rfl
  apply verified_mailbox
  intro live
  apply Lockstep.bind_same
  intro time _
  rw [any_tombstone_mailbox (P := P), find_message_mailbox (P := P)]
  apply Lockstep.bind_same
  intro _ _
  cases found : (t.mailbox P request.queueId).findMessage request.messageId with
  | some row =>
      apply Lockstep.ite
      · intro _
        apply Lockstep.bind_same
        intro _ _
        apply Lockstep.bind_same
        intro _ _
        exact .ok ⟨rfl, rfl⟩
      · intro _
        exact .error _
  | none =>
      apply Lockstep.bind_same
      intro expiresAt _
      have fresh : ∀ other ∈ (t.mailbox P request.queueId).messages,
          other.messageId ≠ (Mailbox.messageOf request expiresAt).messageId := by
        intro other member
        simpa [Mailbox.messageOf] using List.find?_eq_none.mp found other member
      obtain ⟨t', inserted, view⟩ := insertMessage_mailbox
        (Mailbox.messageOf request expiresAt) live rfl
        (by simp [MessageRow.checks, Mailbox.messageOf, request.messageId.length_toList,
          request.signature.length_toList]) fresh
      change Lockstep _ (insertMessage _ (Mailbox.messageOf request expiresAt) >>= _) _
      rw [inserted]
      exact .ok ⟨rfl, view⟩

theorem fetchIn_mailbox (t : Tables) (request : FetchRequest) (now : UInt64) :
    Lockstep (Matches P request.queueId) (fetchIn P t request now)
      ((t.mailbox P request.queueId).fetch P request now) := by
  unfold fetchIn Mailbox.fetch
  apply Lockstep.bind_same
  intro _ _
  apply Lockstep.bind (t.purgeExpiredIn_mailbox now request.queueId)
  rintro ⟨_, t⟩ _ rfl
  apply verified_mailbox
  intro live
  apply Lockstep.bind (t.recordNonce_mailbox _ _ _ _ live)
  rintro t _ rfl
  apply Lockstep.bind_same
  intro time _
  have selected : t.messages.contents.filter
        (fun row => row.queueId = request.queueId.toList ∧ time < row.expiresAt) =
      (t.mailbox P request.queueId).messages.filter (fun row => time < row.expiresAt) := by
    simp only [mailbox, List.filter_filter, Bool.decide_and, Bool.and_comm]
  rw [selected]
  apply Lockstep.bind_same
  intro _ _
  exact .ok ⟨rfl, rfl⟩

theorem acknowledgeIn_mailbox (t : Tables) (request : AckRequest) (now : UInt64) :
    Lockstep (Matches P request.queueId) (acknowledgeIn P t request now)
      ((t.mailbox P request.queueId).acknowledge P request now) := by
  unfold acknowledgeIn Mailbox.acknowledge
  apply Lockstep.bind_same
  intro _ _
  apply Lockstep.bind (t.purgeExpiredIn_mailbox now request.queueId)
  rintro ⟨_, t⟩ _ rfl
  apply verified_mailbox
  intro live
  rw [any_tombstone_mailbox (P := P), find_message_mailbox (P := P)]
  cases found : (t.mailbox P request.queueId).findMessage request.messageId with
  | none =>
      apply Lockstep.bind_same
      intro _ _
      exact .ok ⟨rfl, rfl⟩
  | some row =>
      apply Lockstep.bind_same
      intro _ _
      apply Lockstep.bind_same
      intro deleteAfter _
      obtain ⟨t', inserted, view⟩ := t.upsertTombstone_mailbox request.queueId request.messageId
        deleteAfter live
      rw [inserted]
      exact .ok ⟨rfl, view⟩

theorem deleteMailboxIn_mailbox (t : Tables) (request : DeleteMailboxRequest) (now : UInt64) :
    Lockstep (Matches P request.queueId) (deleteMailboxIn P t request now)
      ((t.mailbox P request.queueId).deleteMailbox P request now) := by
  unfold deleteMailboxIn Mailbox.deleteMailbox
  apply Lockstep.bind_same
  intro _ _
  apply Lockstep.bind (t.purgeExpiredIn_mailbox now request.queueId)
  rintro ⟨_, t⟩ _ rfl
  apply verified_mailbox
  intro live
  dsimp only
  apply Lockstep.bind (t.recordNonce_mailbox _ _ _ _ live)
  rintro t _ rfl
  apply Lockstep.bind_same
  intro retiredAt _
  have retired := t.insertRetiredQueue_mailbox (P := P) (digest P request.queueId.toList)
    retiredAt request.queueId
  generalize t.insertRetiredQueue _ = outcome at retired ⊢
  obtain ⟨_, t'⟩ := outcome
  obtain ⟨deleted, view⟩ := t'.deleteMailboxRow_mailbox (P := P) request.queueId
  refine .ok ⟨?_, ?_⟩
  · simp only [deleted, retired]
  · simp [view, retired, Mailbox.retire, Mailbox.absent]

section Bystanders

/-! An operation addressed to another queue sweeps this mailbox and does nothing
else to it, unless it retires the digest of this queue as well. -/

variable {now : UInt64} (q)

theorem purgeExpiredIn_other {result : Nat × Tables} (h : purgeExpiredIn t now = .ok result) :
    now.toNat < 2 ^ 63 ∧ result.2.mailbox P q = (t.mailbox P q).sweep now.toNat := by
  have related := t.purgeExpiredIn_mailbox (P := P) now q
  rw [h] at related
  cases hp : (t.mailbox P q).purge now with
  | error e =>
      rw [hp] at related
      cases related
  | ok m =>
      rw [hp] at related
      simp only [Mailbox.purge, bind_eq_ok, toI64_eq_ok, Except.ok.injEq] at hp
      obtain ⟨_, ⟨representable, rfl⟩, rfl⟩ := hp
      cases related with
      | ok same => exact ⟨representable, same⟩

variable {q}

theorem registerIn_other {request : MailboxRegistration P} {c : Committed Bool}
    (h : registerIn P t request now = .ok c) (other : request.queueId ≠ q) :
    now.toNat < 2 ^ 63 ∧ c.2.2.mailbox P q = (t.mailbox P q).sweep now.toNat := by
  have apart : request.queueId.toList ≠ q.toList := FixedBytes.toList_inj.not.mpr other
  simp only [registerIn, bind_eq_ok] at h
  obtain ⟨_, _, _, _, ⟨_, t₁⟩, swept, _, _, h⟩ := h
  obtain ⟨representable, view⟩ := purgeExpiredIn_other (P := P) q swept
  refine ⟨representable, ?_⟩
  rw [← view]
  split at h
  · simp only [bind_eq_ok, Except.ok.injEq] at h
    obtain ⟨_, _, _, _, rfl⟩ := h
    exact insertRegistrationNonce_other _ apart
  · simp only [bind_eq_ok, Except.ok.injEq] at h
    obtain ⟨_, _, _, _, _, _, _, inserted, rfl⟩ := h
    rw [insertMailbox_other inserted apart]
    exact insertRegistrationNonce_other _ apart

theorem enqueueIn_other {request : SendRequest} {c : Committed EnqueueOutcome}
    (h : enqueueIn P t request now = .ok c) (other : request.queueId ≠ q) :
    now.toNat < 2 ^ 63 ∧ c.2.2.mailbox P q = (t.mailbox P q).sweep now.toNat := by
  have apart : request.queueId.toList ≠ q.toList := FixedBytes.toList_inj.not.mpr other
  simp only [enqueueIn, bind_eq_ok] at h
  obtain ⟨_, _, _, _, ⟨_, t₁⟩, swept, _, _, _, _, _, _, _, _, h⟩ := h
  obtain ⟨representable, view⟩ := purgeExpiredIn_other (P := P) q swept
  refine ⟨representable, ?_⟩
  rw [← view]
  split at h
  · split at h
    · simp only [bind_eq_ok, Except.ok.injEq] at h
      obtain ⟨_, _, _, _, rfl⟩ := h
      rfl
    · cases h
  · simp only [bind_eq_ok, Except.ok.injEq] at h
    obtain ⟨_, _, _, inserted, rfl⟩ := h
    exact insertMessage_other inserted apart

theorem fetchIn_other {request : FetchRequest} {c : Committed (List StoredEnvelope)}
    (h : fetchIn P t request now = .ok c) (other : request.queueId ≠ q) :
    now.toNat < 2 ^ 63 ∧ c.2.2.mailbox P q = (t.mailbox P q).sweep now.toNat := by
  simp only [fetchIn, bind_eq_ok, Except.ok.injEq] at h
  obtain ⟨_, _, ⟨_, t₁⟩, swept, _, _, _, _, t₂, recorded, _, _, _, _, rfl⟩ := h
  obtain ⟨representable, view⟩ := purgeExpiredIn_other (P := P) q swept
  refine ⟨representable, ?_⟩
  rw [← view]
  exact recordNonce_other recorded other

theorem acknowledgeIn_other {request : AckRequest} {c : Committed AckOutcome}
    (h : acknowledgeIn P t request now = .ok c) (other : request.queueId ≠ q) :
    now.toNat < 2 ^ 63 ∧ c.2.2.mailbox P q = (t.mailbox P q).sweep now.toNat := by
  have apart : request.queueId.toList ≠ q.toList := FixedBytes.toList_inj.not.mpr other
  simp only [acknowledgeIn, bind_eq_ok] at h
  obtain ⟨_, _, ⟨_, t₁⟩, swept, _, _, _, _, h⟩ := h
  obtain ⟨representable, view⟩ := purgeExpiredIn_other (P := P) q swept
  refine ⟨representable, ?_⟩
  rw [← view]
  split at h
  · simp only [bind_eq_ok, Except.ok.injEq] at h
    obtain ⟨_, _, rfl⟩ := h
    rfl
  · simp only [bind_eq_ok, Except.ok.injEq] at h
    obtain ⟨_, _, _, _, _, inserted, rfl⟩ := h
    rw [upsertTombstone_other inserted apart]
    exact deleteMessage_other _ apart

theorem deleteMailboxIn_other {request : DeleteMailboxRequest} {c : Committed Bool}
    (h : deleteMailboxIn P t request now = .ok c) (other : request.queueId ≠ q) :
    now.toNat < 2 ^ 63 ∧ c.2.2.mailbox P q =
      { (t.mailbox P q).sweep now.toNat with
        retired := (t.mailbox P q).retired ||
          (digest P request.queueId.toList = digest P q.toList) } := by
  simp only [deleteMailboxIn, bind_eq_ok, Except.ok.injEq] at h
  obtain ⟨_, _, ⟨_, t₁⟩, swept, _, _, _, _, t₂, recorded, _, _, rfl⟩ := h
  obtain ⟨representable, view⟩ := purgeExpiredIn_other (P := P) q swept
  refine ⟨representable, ?_⟩
  rw [deleteMailboxRow_other _ other, insertRetiredQueue_mailbox, recordNonce_other recorded other,
    view]
  rfl

end Bystanders

end Tables

end SecureMessenger
