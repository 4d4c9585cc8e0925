import SecureMessenger.Relay.Behaviour

/-!
# What a successful call commits

`Call.commits` is the transaction of a call as one function of the tables: an
error, or an answer with the tables that replace the old ones. `step_ok` says that
a call of the relay answers and commits what this function says; failed calls
leave the relay alone.

Every row that a call commits was there before and has not expired, or is the one
row that calls of its kind insert. `Tables.Arises` states this for all six tables
at once, so a property of single rows needs no further look at the operations.
-/

namespace SecureMessenger

open Fallible

variable {P : Primitives}

namespace Tables

variable {t t' : Tables}

/-- The tables without the rows whose deadline has passed. -/
def swept (t : Tables) (now : Int) : Tables :=
  { t with
    messages := t.messages.keep (fun row => now < row.expiresAt)
    tombstones := t.tombstones.keep (fun row => now < row.deleteAfter)
    requestNonces := t.requestNonces.keep (fun row => now < row.deleteAfter)
    registrationNonces := t.registrationNonces.keep (fun row => now < row.deleteAfter) }

/-- How many messages a sweep deletes. -/
def expired (t : Tables) (now : Int) : Nat :=
  t.messages.contents.countP (fun row => row.expiresAt ≤ now)

/-- The sweep fails only on a clock value that the database cannot hold. -/
theorem purgeExpiredIn_eq_ok {now : UInt64} {result : Nat × Tables} :
    purgeExpiredIn t now = .ok result ↔
      now.toNat < 2 ^ 63 ∧ result = (t.expired now.toNat, t.swept now.toNat) := by
  have kept : ∀ (time deadline : Int),
      (!decide (deadline ≤ time)) = decide (time < deadline) := by
    intro time deadline
    rw [← decide_not, decide_eq_decide, Int.not_le]
  simp only [purgeExpiredIn, bind_eq_ok, toI64_eq_ok, Except.ok.injEq, Table.deleteWhere, kept,
    swept, expired]
  constructor
  · rintro ⟨_, ⟨fits, rfl⟩, rfl⟩
    exact ⟨fits, rfl⟩
  · rintro ⟨fits, rfl⟩
    exact ⟨_, ⟨fits, rfl⟩, rfl⟩

theorem purgeExpiredIn_of_fits (t : Tables) {now : UInt64} (fits : now.toNat < 2 ^ 63) :
    purgeExpiredIn t now = .ok (t.expired now.toNat, t.swept now.toNat) :=
  purgeExpiredIn_eq_ok.mpr ⟨fits, rfl⟩

theorem eq_of_insertMailbox {row : MailboxRow} (h : t.insertMailbox row = .ok t') :
    t' = { t with mailboxes := t.mailboxes.append row } := by
  simp only [insertMailbox, Table.insertUnique, bind_eq_ok] at h
  obtain ⟨_, _, h⟩ := h
  split at h
  · next inserted =>
    split at inserted
    · cases inserted
    · cases inserted
      exact (Except.ok.inj h).symm
  · cases h

theorem eq_of_insertMessage {row : MessageRow} (h : t.insertMessage row = .ok t') :
    t' = { t with messages := t.messages.append row } := by
  simp only [insertMessage, Table.insertUnique, bind_eq_ok] at h
  obtain ⟨_, _, _, _, h⟩ := h
  split at h
  · next inserted =>
    split at inserted
    · cases inserted
    · cases inserted
      exact (Except.ok.inj h).symm
  · cases h

theorem eq_of_upsertTombstone {row : TombstoneRow} (h : t.upsertTombstone row = .ok t') :
    t' = { t with
      tombstones := t.tombstones.upsert TombstoneRow.key row
        (fun old => { old with deleteAfter := row.deleteAfter }) } := by
  simp only [upsertTombstone, bind_eq_ok, Except.ok.injEq] at h
  obtain ⟨_, _, _, _, rfl⟩ := h
  rfl

/-- The new tombstone is what an old one of the same message becomes. -/
theorem tombstone_replaced (row : TombstoneRow) :
    ∀ old : TombstoneRow, old.key = row.key →
      { old with deleteAfter := row.deleteAfter } = row := by
  rintro ⟨queueId, messageId, deleteAfter⟩ same
  cases row
  simp_all [TombstoneRow.key]

theorem eq_of_recordNonce {queueId : QueueId} {role : Role} {nonce : Nonce}
    {deleteAfter : UInt64} (h : recordNonce t queueId role nonce deleteAfter = .ok t') :
    deleteAfter.toNat < 2 ^ 63 ∧
    t' = { t with
      requestNonces := t.requestNonces.append
        { queueId := queueId.toList, role, nonce := nonce.toList,
          deleteAfter := deleteAfter.toNat } } := by
  simp only [recordNonce, insertRequestNonce, RequestNonceRow.checks, nonce.length_toList,
    decide_true, if_true, Table.insertOrIgnore, bind_eq_ok, toI64_eq_ok, rejectIf_eq_ok, ne_eq,
    Decidable.not_not, Except.ok.injEq] at h
  obtain ⟨_, ⟨fits, rfl⟩, ⟨inserted, _⟩, ⟨_, _, same⟩, _, one, rfl⟩ := h
  refine ⟨fits, ?_⟩
  split at same
  · cases same
    cases one
  · cases same
    rfl

theorem registrationNonces_insert (t : Tables) (row : RegistrationNonceRow) :
    (t.insertRegistrationNonce row).2 = t ∨
      (t.insertRegistrationNonce row).2 =
        { t with registrationNonces := t.registrationNonces.append row } := by
  simp only [insertRegistrationNonce, Table.insertOrIgnore]
  split
  · split
    · exact .inl rfl
    · exact .inr rfl
  · exact .inl rfl

/-- A hash is retired only once. -/
theorem retiredQueues_insert (t : Tables) (row : RetiredQueueRow) :
    (t.insertRetiredQueue row).2 = t ∨
      (∀ other ∈ t.retiredQueues.contents, other.key ≠ row.key) ∧
        (t.insertRetiredQueue row).2 =
          { t with retiredQueues := t.retiredQueues.append row } := by
  simp only [insertRetiredQueue, Table.insertOrIgnore]
  split
  · split
    · exact .inl rfl
    · next unused =>
      refine .inr ⟨fun other member same => ?_, rfl⟩
      exact unused (List.any_eq_true.mpr ⟨other, member, by simpa using same⟩)
  · exact .inl rfl

end Tables

namespace Call

/-! The row a call inserts into each table, if it is of the kind that does. A
deletion records a nonce too, but the cascade removes it in the same step. -/

def mailboxRow? : Call P → Option MailboxRow
  | register request now => some (Mailbox.rowOf request now.toNat)
  | _ => none

def messageRow? : Call P → Option MessageRow
  | enqueue request _ => some (Mailbox.messageOf request request.expiresAt.toNat)
  | _ => none

def tombstoneRow? : Call P → Option TombstoneRow
  | acknowledge request now =>
      some { queueId := request.queueId.toList, messageId := request.messageId.toList,
             deleteAfter := now.toNat + 604800 }
  | _ => none

def requestNonceRow? : Call P → Option RequestNonceRow
  | fetch request _ =>
      some { queueId := request.queueId.toList, role := .receive, nonce := request.nonce.toList,
             deleteAfter := request.validUntil.toNat }
  | _ => none

def registrationNonceRow? : Call P → Option RegistrationNonceRow
  | register request _ =>
      some { queueId := request.queueId.toList, nonce := request.nonce.toList,
             deleteAfter := request.validUntil.toNat }
  | _ => none

def retiredQueueRow? (P : Primitives) : Call P → Option RetiredQueueRow
  | deleteMailbox request now =>
      some { queueHash := (digest P request.queueId.toList).toList, retiredAt := now.toNat }
  | _ => none

end Call

namespace Tables

/-- Where the rows of the committed tables come from. -/
structure Arises (P : Primitives) (call : Call P) (t t' : Tables) : Prop where
  mailboxes : ∀ row ∈ t'.mailboxes.contents,
    row ∈ t.mailboxes.contents ∨ row ∈ call.mailboxRow?
  messages : ∀ row ∈ t'.messages.contents,
    (row ∈ t.messages.contents ∧ (call.clock : Int) < row.expiresAt) ∨ row ∈ call.messageRow?
  tombstones : ∀ row ∈ t'.tombstones.contents,
    (row ∈ t.tombstones.contents ∧ (call.clock : Int) < row.deleteAfter) ∨
      row ∈ call.tombstoneRow?
  requestNonces : ∀ row ∈ t'.requestNonces.contents,
    (row ∈ t.requestNonces.contents ∧ (call.clock : Int) < row.deleteAfter) ∨
      row ∈ call.requestNonceRow?
  registrationNonces : ∀ row ∈ t'.registrationNonces.contents,
    (row ∈ t.registrationNonces.contents ∧ (call.clock : Int) < row.deleteAfter) ∨
      row ∈ call.registrationNonceRow?
  retiredQueues : ∀ row ∈ t'.retiredQueues.contents,
    row ∈ t.retiredQueues.contents ∨ row ∈ call.retiredQueueRow? P
  retiredOnce : (t.retiredQueues.contents.map RetiredQueueRow.key).Nodup →
    (t'.retiredQueues.contents.map RetiredQueueRow.key).Nodup

variable {t t' : Tables} {call : Call P}

/-- A sweep only removes rows. -/
theorem arises_swept (call : Call P) (t : Tables) :
    Arises P call t (t.swept (call.clock : Int)) := by
  constructor
  case retiredOnce => exact id
  all_goals intro row member
  case mailboxes | retiredQueues => exact .inl member
  all_goals
    simp only [swept, Table.contents_keep, List.mem_filter, decide_eq_true_eq] at member
    exact .inl member

theorem Arises.insertMailbox {t₁ : Tables} (before : Arises P call t t₁) {row : MailboxRow}
    (own : row ∈ call.mailboxRow?) (h : t₁.insertMailbox row = .ok t') : Arises P call t t' := by
  rw [eq_of_insertMailbox h]
  refine { before with mailboxes := ?_ }
  intro other member
  rw [Table.contents_append, List.mem_append, List.mem_singleton] at member
  obtain old | rfl := member
  · exact before.mailboxes other old
  · exact .inr own

theorem Arises.insertMessage {t₁ : Tables} (before : Arises P call t t₁) {row : MessageRow}
    (own : row ∈ call.messageRow?) (h : t₁.insertMessage row = .ok t') : Arises P call t t' := by
  rw [eq_of_insertMessage h]
  refine { before with messages := ?_ }
  intro other member
  rw [Table.contents_append, List.mem_append, List.mem_singleton] at member
  obtain old | rfl := member
  · exact before.messages other old
  · exact .inr own

theorem Arises.upsertTombstone {t₁ : Tables} (before : Arises P call t t₁) {row : TombstoneRow}
    (own : row ∈ call.tombstoneRow?) (h : t₁.upsertTombstone row = .ok t') :
    Arises P call t t' := by
  rw [eq_of_upsertTombstone h]
  refine { before with tombstones := ?_ }
  intro other member
  rw [Table.mem_contents_upsert (tombstone_replaced row)] at member
  obtain ⟨old, _⟩ | rfl := member
  · exact before.tombstones other old
  · exact .inr own

theorem Arises.insertRegistrationNonce {t₁ : Tables} (before : Arises P call t t₁)
    {row : RegistrationNonceRow} (own : row ∈ call.registrationNonceRow?) :
    Arises P call t (t₁.insertRegistrationNonce row).2 := by
  obtain same | same := t₁.registrationNonces_insert row <;> rw [same]
  · exact before
  · refine { before with registrationNonces := ?_ }
    intro other member
    rw [Table.contents_append, List.mem_append, List.mem_singleton] at member
    obtain old | rfl := member
    · exact before.registrationNonces other old
    · exact .inr own

theorem Arises.insertRetiredQueue {t₁ : Tables} (before : Arises P call t t₁)
    {row : RetiredQueueRow} (own : row ∈ call.retiredQueueRow? P) :
    Arises P call t (t₁.insertRetiredQueue row).2 := by
  obtain same | ⟨unused, same⟩ := t₁.retiredQueues_insert row <;> rw [same]
  · exact before
  · refine { before with retiredQueues := ?_, retiredOnce := fun once => ?_ }
    · intro other member
      rw [Table.contents_append, List.mem_append, List.mem_singleton] at member
      obtain old | rfl := member
      · exact before.retiredQueues other old
      · exact .inr own
    · rw [Table.contents_append]
      exact Table.nodup_map_concat (before.retiredOnce once) unused

/-- Deleting rows keeps the origin of the others. -/
theorem Arises.deleteMessage {t₁ : Tables} (before : Arises P call t t₁)
    (queueId messageId : Bytes) : Arises P call t (t₁.deleteMessage queueId messageId) := by
  refine { before with messages := ?_ }
  intro row member
  simp only [Tables.deleteMessage, Table.deleteWhere, Table.contents_keep, List.mem_filter]
    at member
  exact before.messages row member.1

theorem registerIn_arises {request : MailboxRegistration P} {now : UInt64} {c : Committed Bool}
    (h : registerIn P t request now = .ok c) : Arises P (.register request now) t c.2.2 := by
  simp only [registerIn, bind_eq_ok, purgeExpiredIn_eq_ok] at h
  obtain ⟨_, _, _, _, _, ⟨_, rfl⟩, _, _, h⟩ := h
  have swept := arises_swept (.register request now) t
  split at h
  · simp only [bind_eq_ok, toI64_eq_ok, Except.ok.injEq] at h
    obtain ⟨_, _, _, ⟨_, rfl⟩, rfl⟩ := h
    exact swept.insertRegistrationNonce rfl
  · simp only [bind_eq_ok, toI64_eq_ok, Except.ok.injEq] at h
    obtain ⟨_, ⟨_, rfl⟩, _, _, _, ⟨_, rfl⟩, _, inserted, rfl⟩ := h
    exact (swept.insertRegistrationNonce rfl).insertMailbox rfl inserted

theorem enqueueIn_arises {request : SendRequest} {now : UInt64} {c : Committed EnqueueOutcome}
    (h : enqueueIn P t request now = .ok c) : Arises P (.enqueue request now) t c.2.2 := by
  simp only [enqueueIn, bind_eq_ok, purgeExpiredIn_eq_ok] at h
  obtain ⟨_, _, _, _, _, ⟨_, rfl⟩, _, _, _, _, _, _, _, _, h⟩ := h
  have swept := arises_swept (.enqueue request now : Call P) t
  split at h
  · split at h
    · simp only [bind_eq_ok, Except.ok.injEq] at h
      obtain ⟨_, _, _, _, rfl⟩ := h
      exact swept
    · cases h
  · simp only [bind_eq_ok, toI64_eq_ok, Except.ok.injEq] at h
    obtain ⟨_, ⟨_, rfl⟩, _, inserted, rfl⟩ := h
    exact swept.insertMessage rfl inserted

theorem fetchIn_arises {request : FetchRequest} {now : UInt64}
    {c : Committed (List StoredEnvelope)} (h : fetchIn P t request now = .ok c) :
    Arises P (.fetch request now) t c.2.2 := by
  simp only [fetchIn, bind_eq_ok, purgeExpiredIn_eq_ok, Except.ok.injEq] at h
  obtain ⟨_, _, _, ⟨_, rfl⟩, _, _, _, _, _, recorded, _, _, _, _, rfl⟩ := h
  have swept := arises_swept (.fetch request now : Call P) t
  rw [(eq_of_recordNonce recorded).2]
  refine { swept with requestNonces := ?_ }
  intro row member
  rw [Table.contents_append, List.mem_append, List.mem_singleton] at member
  obtain old | rfl := member
  · exact swept.requestNonces row old
  · exact .inr rfl

theorem acknowledgeIn_arises {request : AckRequest} {now : UInt64} {c : Committed AckOutcome}
    (h : acknowledgeIn P t request now = .ok c) : Arises P (.acknowledge request now) t c.2.2 := by
  simp only [acknowledgeIn, bind_eq_ok, purgeExpiredIn_eq_ok] at h
  obtain ⟨_, _, _, ⟨_, rfl⟩, _, _, _, _, h⟩ := h
  have swept := arises_swept (.acknowledge request now : Call P) t
  split at h
  · simp only [bind_eq_ok, Except.ok.injEq] at h
    obtain ⟨_, _, rfl⟩ := h
    exact swept
  · simp only [bind_eq_ok, Except.ok.injEq] at h
    obtain ⟨_, _, _, deadline, _, inserted, rfl⟩ := h
    rw [tombstone_deadline deadline] at inserted
    exact (swept.deleteMessage _ _).upsertTombstone rfl inserted

/-- The nonce a deletion records goes with its mailbox. -/
theorem deleteMailboxIn_arises {request : DeleteMailboxRequest} {now : UInt64}
    {c : Committed Bool} (h : deleteMailboxIn P t request now = .ok c) :
    Arises P (.deleteMailbox request now) t c.2.2 := by
  simp only [deleteMailboxIn, bind_eq_ok, purgeExpiredIn_eq_ok, toI64_eq_ok,
    Except.ok.injEq] at h
  obtain ⟨_, _, _, ⟨_, rfl⟩, _, _, _, _, _, recorded, _, ⟨_, rfl⟩, rfl⟩ := h
  obtain ⟨_, rfl⟩ := eq_of_recordNonce recorded
  have swept := arises_swept (.deleteMailbox request now : Call P) t
  have retired : Arises P (.deleteMailbox request now) t _ := swept.insertRetiredQueue rfl
  constructor
  case retiredOnce => exact retired.retiredOnce
  all_goals intro row member
  case retiredQueues => exact retired.retiredQueues row member
  case registrationNonces => exact swept.registrationNonces row member
  all_goals
    simp only [deleteMailboxRow, Table.deleteWhere, Table.contents_keep, List.mem_filter] at member
    obtain ⟨member, other⟩ := member
  case mailboxes => exact swept.mailboxes row member
  case messages => exact swept.messages row member
  case tombstones => exact swept.tombstones row member
  case requestNonces =>
    change row ∈ (Table.append _ _).contents at member
    rw [Table.contents_append, List.mem_append, List.mem_singleton] at member
    obtain old | rfl := member
    · exact swept.requestNonces row old
    · simp at other

end Tables

namespace Call

variable {t t' : Tables} {answer : Answer}

/-- Every committed row was there and has not expired, or is the call's own. -/
theorem commits_arises {call : Call P} (committed : call.commits P t = .ok (answer, t')) :
    Tables.Arises P call t t' := by
  cases call with
  | register request now =>
      obtain ⟨c, body, same⟩ := bind_eq_ok.mp committed
      cases same
      exact Tables.registerIn_arises body
  | enqueue request now =>
      obtain ⟨c, body, same⟩ := bind_eq_ok.mp committed
      cases same
      exact Tables.enqueueIn_arises body
  | fetch request now =>
      obtain ⟨c, body, same⟩ := bind_eq_ok.mp committed
      cases same
      exact Tables.fetchIn_arises body
  | acknowledge request now =>
      obtain ⟨c, body, same⟩ := bind_eq_ok.mp committed
      cases same
      exact Tables.acknowledgeIn_arises body
  | deleteMailbox request now =>
      obtain ⟨c, body, same⟩ := bind_eq_ok.mp committed
      cases same
      exact Tables.deleteMailboxIn_arises body
  | purgeExpired now | queuedMessageCountAt now | reopen now =>
      obtain ⟨swept, purged, same⟩ := bind_eq_ok.mp committed
      cases same
      obtain ⟨_, rfl⟩ := Tables.purgeExpiredIn_eq_ok.mp purged
      exact Tables.arises_swept _ t

/-- The bounds that the fields of a committed request keep. An acknowledgement's
deadline is compared with the clock but never stored, so it need not fit into the
database; its tombstone's deadline is. -/
def Bounded : Call P → Answer → Prop
  | register request now, _ =>
      Mailbox.Timely 300 request.validUntil now ∧ request.validUntil.toNat < 2 ^ 63
  | enqueue request now, _ =>
      (request.packet ≠ [] ∧ request.packet.length ≤ maxPacketBytes) ∧
        Mailbox.Timely 604800 request.expiresAt now ∧ request.expiresAt.toNat < 2 ^ 63
  | fetch request now, _ =>
      Mailbox.Timely 300 request.validUntil now ∧ request.validUntil.toNat < 2 ^ 63
  | acknowledge request now, answer =>
      Mailbox.Timely 300 request.validUntil now ∧
        (answer = .acknowledged .deleted → now.toNat + 604800 < 2 ^ 63)
  | deleteMailbox request now, _ =>
      Mailbox.Timely 300 request.validUntil now ∧ request.validUntil.toNat < 2 ^ 63
  | purgeExpired _, _ | queuedMessageCountAt _, _ | reopen _, _ => True

theorem commits_bounded {call : Call P} (committed : call.commits P t = .ok (answer, t')) :
    call.clock < 2 ^ 63 ∧ call.Bounded answer := by
  cases call with
  | register request now =>
      obtain ⟨c, body, same⟩ := bind_eq_ok.mp committed
      cases same
      simp only [registerIn, bind_eq_ok, validateRequestTime_eq_ok,
        Tables.purgeExpiredIn_eq_ok] at body
      obtain ⟨_, ⟨future, near⟩, _, _, _, ⟨representable, rfl⟩, _, _, body⟩ := body
      refine ⟨representable, ⟨future, near⟩, ?_⟩
      split at body
      · simp only [bind_eq_ok, toI64_eq_ok] at body
        obtain ⟨_, _, _, ⟨fits, _⟩, _⟩ := body
        exact fits
      · simp only [bind_eq_ok, toI64_eq_ok] at body
        obtain ⟨_, ⟨fits, _⟩, _⟩ := body
        exact fits
  | enqueue request now =>
      obtain ⟨c, body, same⟩ := bind_eq_ok.mp committed
      cases same
      simp only [enqueueIn, bind_eq_ok, rejectIf_eq_ok, validateMessageExpiry_eq_ok,
        Tables.purgeExpiredIn_eq_ok, not_or, Nat.not_lt] at body
      obtain ⟨_, size, _, ⟨future, near⟩, _, ⟨representable, rfl⟩, _, _, _, _, _, _, _, _, body⟩ :=
        body
      refine ⟨representable, size, ⟨future, near⟩, ?_⟩
      split at body
      · split at body
        · simp only [bind_eq_ok, toI64_eq_ok] at body
          obtain ⟨_, ⟨fits, _⟩, _⟩ := body
          exact fits
        · cases body
      · simp only [bind_eq_ok, toI64_eq_ok] at body
        obtain ⟨_, ⟨fits, _⟩, _⟩ := body
        exact fits
  | fetch request now =>
      obtain ⟨c, body, same⟩ := bind_eq_ok.mp committed
      cases same
      simp only [fetchIn, bind_eq_ok, validateRequestTime_eq_ok,
        Tables.purgeExpiredIn_eq_ok] at body
      obtain ⟨_, ⟨future, near⟩, _, ⟨representable, rfl⟩, _, _, _, _, _, recorded, _⟩ := body
      exact ⟨representable, ⟨future, near⟩, (Tables.eq_of_recordNonce recorded).1⟩
  | acknowledge request now =>
      obtain ⟨c, body, same⟩ := bind_eq_ok.mp committed
      cases same
      simp only [acknowledgeIn, bind_eq_ok, validateRequestTime_eq_ok,
        Tables.purgeExpiredIn_eq_ok] at body
      obtain ⟨_, ⟨future, near⟩, _, ⟨representable, rfl⟩, _, _, _, _, body⟩ := body
      refine ⟨representable, ⟨future, near⟩, ?_⟩
      split at body
      · simp only [bind_eq_ok, Except.ok.injEq] at body
        obtain ⟨_, _, rfl⟩ := body
        exact fun deleted => by cases deleted
      · simp only [bind_eq_ok, toI64_eq_ok, toNat_saturatingAdd] at body
        obtain ⟨_, _, _, ⟨fits, _⟩, _⟩ := body
        have week : tombstoneTtlSeconds.toNat = 604800 := rfl
        intro _
        omega
  | deleteMailbox request now =>
      obtain ⟨c, body, same⟩ := bind_eq_ok.mp committed
      cases same
      simp only [deleteMailboxIn, bind_eq_ok, validateRequestTime_eq_ok,
        Tables.purgeExpiredIn_eq_ok] at body
      obtain ⟨_, ⟨future, near⟩, _, ⟨representable, rfl⟩, _, _, _, _, _, recorded, _⟩ := body
      exact ⟨representable, ⟨future, near⟩, (Tables.eq_of_recordNonce recorded).1⟩
  | purgeExpired now | queuedMessageCountAt now | reopen now =>
      obtain ⟨swept, purged, same⟩ := bind_eq_ok.mp committed
      exact ⟨(Tables.purgeExpiredIn_eq_ok.mp purged).1, trivial⟩

end Call

/-- What every committed call preserves holds of the tables after every run. -/
theorem Relay.tables_after (invariant : Tables → Prop)
    (keeps : ∀ {t : Tables} {call : Call P} {answer : Answer} {t' : Tables}, invariant t →
      call.commits P t = .ok (answer, t') → invariant t')
    (initial : invariant .empty) (calls : List (Call P)) :
    invariant (Relay.after P calls).image.tables := by
  have both : (Relay.after P calls).Current ∧ invariant (Relay.after P calls).image.tables :=
    Machine.invariant_run (fun r : Relay => r.Current ∧ invariant r.image.tables)
    (fun r call h => ⟨current_step h.1 call, by
      cases reply : (r.step P call).1 with
      | error e =>
          rw [step_error reply]
          exact h.2
      | ok answer =>
          obtain ⟨tables, committed, image⟩ := step_ok h.1 reply
          rw [image]
          exact keeps h.2 committed⟩)
    ⟨current_empty, initial⟩ calls
  exact both.2

end SecureMessenger
