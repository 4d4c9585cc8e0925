import SecureMessenger.Relay.Opening
import SecureMessenger.Relay.Representation

/-!
# The books of the relay

Whoever sees the calls and the replies can keep book of what the relay holds over all its
mailboxes: which messages are queued, which tombstones stand, and which events the handle
has recorded. A refused call enters nothing, not even its sweep. The counts that the
relay reports are those of the books, at any clock values, also ones that go back.
-/

namespace SecureMessenger

open Fallible Machine

variable {P : Primitives}

/-- Count the tombstones of all mailboxes. -/
def Relay.tombstoneCount (r : Relay) : Nat := r.image.tables.tombstones.contents.length

/-- What is known of a relay from its replies. -/
structure Accounts where
  messages : List SendRequest
  stones : List TombstoneRow
  events : List AuditEvent

namespace Accounts

def empty : Accounts := ⟨[], [], []⟩

def sweep (accounts : Accounts) (now : UInt64) : Accounts :=
  { accounts with
    messages := accounts.messages.filter fun sent => now < sent.expiresAt
    stones := accounts.stones.filter fun stone => now.toNat < stone.deleteAfter }

def record (accounts : Accounts) (event : AuditEvent) : Accounts :=
  { accounts with events := accounts.events ++ [event] }

/-- How many messages have expired. -/
def expired (accounts : Accounts) (now : UInt64) : Nat :=
  accounts.messages.countP fun sent => sent.expiresAt ≤ now

/-- A sweep of its own is recorded if it finds something. -/
def purge (accounts : Accounts) (now : UInt64) : Accounts :=
  if 0 < accounts.expired now then (accounts.sweep now).record .expiredMessagesDeleted
  else accounts.sweep now

def store (accounts : Accounts) (request : SendRequest) : Accounts :=
  { accounts with messages := accounts.messages ++ [request] }

/-- The message leaves and its tombstone stands for a week. -/
def bury (accounts : Accounts) (request : AckRequest) (now : UInt64) : Accounts :=
  { accounts with
    messages := accounts.messages.filter fun sent =>
      ¬ (sent.queueId = request.queueId ∧ sent.messageId = request.messageId)
    stones := accounts.stones ++
      [⟨request.queueId.toList, request.messageId.toList, now.toNat + 604800⟩] }

/-- Everything of one mailbox leaves. -/
def drop (accounts : Accounts) (queueId : QueueId) : Accounts :=
  { accounts with
    messages := accounts.messages.filter fun sent => sent.queueId ≠ queueId
    stones := accounts.stones.filter fun stone => stone.queueId ≠ queueId.toList }

/-- One call with its reply. -/
def enter (accounts : Accounts) : Call P × Reply → Accounts
  | (.register _ now, .ok (.registered true)) => (accounts.sweep now).record .mailboxRegistered
  | (.register _ now, .ok (.registered false)) =>
      (accounts.sweep now).record .mailboxRegistrationDuplicate
  | (.enqueue request now, .ok (.enqueued .stored)) =>
      ((accounts.sweep now).store request).record .messageEnqueued
  | (.enqueue _ now, .ok (.enqueued .duplicate)) =>
      (accounts.sweep now).record .messageEnqueueDuplicate
  | (.fetch _ now, .ok (.fetched _)) => (accounts.sweep now).record .mailboxFetched
  | (.acknowledge request now, .ok (.acknowledged .deleted)) =>
      ((accounts.sweep now).bury request now).record .messageAcknowledgedAndDeleted
  | (.acknowledge _ now, .ok (.acknowledged .alreadyDeleted)) =>
      (accounts.sweep now).record .messageAckDuplicate
  | (.deleteMailbox request now, .ok (.mailboxDeleted _)) =>
      ((accounts.sweep now).drop request.queueId).record .mailboxDeleted
  | (.purgeExpired now, .ok (.purged _)) => accounts.purge now
  | (.queuedMessageCountAt now, .ok (.counted _)) => accounts.purge now
  | (.reopen now, .ok .reopened) => { accounts.sweep now with events := [] }
  | _ => accounts

/-- The books after a history. -/
def of (entries : List (Call P × Reply)) : Accounts := entries.foldl enter empty

/-- The row of a stored message. -/
def row (sent : SendRequest) : MessageRow := Mailbox.messageOf sent sent.expiresAt.toNat

/-- The books agree with the tables. -/
structure Holds (accounts : Accounts) (t : Tables) : Prop where
  messages : t.messages.contents = accounts.messages.map row
  stones : t.tombstones.contents = accounts.stones

variable {accounts : Accounts} {t : Tables}

theorem Holds.swept (holds : accounts.Holds t) (now : UInt64) :
    (accounts.sweep now).Holds (t.swept now.toNat) where
  messages := by
    simp only [Tables.swept, Table.contents_keep, holds.messages, sweep, List.filter_map]
    refine congrArg _ (List.filter_congr fun sent _ => ?_)
    simp [row, Mailbox.messageOf, UInt64.lt_iff_toNat_lt]
  stones := by
    simp only [Tables.swept, Table.contents_keep, holds.stones, sweep]

theorem Holds.expired (holds : accounts.Holds t) (now : UInt64) :
    t.expired now.toNat = accounts.expired now := by
  simp only [Tables.expired, holds.messages, Accounts.expired, List.countP_map]
  refine List.countP_congr fun sent _ => ?_
  simp [row, Mailbox.messageOf, UInt64.le_iff_toNat_le]

/-- A transaction whose value, event and tables are what the books enter. -/
structure Enters (P : Primitives) (accounts : Accounts) (call : Call P) (answer : Answer)
    (event : AuditEvent) (t : Tables) : Prop where
  holds : (accounts.enter (call, .ok answer)).Holds t
  events : (accounts.enter (call, .ok answer)).events = accounts.events ++ [event]

theorem Holds.register (holds : accounts.Holds t) {request : MailboxRegistration P} {now : UInt64}
    {fresh : Bool} {event : AuditEvent} {t' : Tables}
    (done : registerIn P t request now = .ok (fresh, event, t')) :
    Enters P accounts (.register request now) (.registered fresh) event t' := by
  have swept := holds.swept now
  simp only [registerIn, bind_eq_ok, Tables.purgeExpiredIn_eq_ok] at done
  obtain ⟨_, _, _, _, _, ⟨_, rfl⟩, _, _, done⟩ := done
  split at done
  · simp only [bind_eq_ok, Except.ok.injEq, Prod.mk.injEq] at done
    obtain ⟨_, _, _, _, rfl, rfl, rfl⟩ := done
    exact ⟨⟨swept.messages, swept.stones⟩, rfl⟩
  · simp only [bind_eq_ok, Except.ok.injEq, Prod.mk.injEq] at done
    obtain ⟨_, _, _, _, _, _, _, inserted, rfl, rfl, rfl⟩ := done
    rw [Tables.eq_of_insertMailbox inserted]
    exact ⟨⟨swept.messages, swept.stones⟩, rfl⟩

theorem Holds.enqueue (holds : accounts.Holds t) {request : SendRequest} {now : UInt64}
    {outcome : EnqueueOutcome} {event : AuditEvent} {t' : Tables}
    (done : enqueueIn P t request now = .ok (outcome, event, t')) :
    Enters P accounts (.enqueue request now) (.enqueued outcome) event t' := by
  have swept := holds.swept now
  simp only [enqueueIn, bind_eq_ok, Tables.purgeExpiredIn_eq_ok] at done
  obtain ⟨_, _, _, _, _, ⟨_, rfl⟩, _, _, _, _, _, _, _, _, done⟩ := done
  split at done
  · split at done
    · simp only [bind_eq_ok, Except.ok.injEq, Prod.mk.injEq] at done
      obtain ⟨_, _, _, _, rfl, rfl, rfl⟩ := done
      exact ⟨⟨swept.messages, swept.stones⟩, rfl⟩
    · cases done
  · simp only [bind_eq_ok, Except.ok.injEq, Prod.mk.injEq, toI64_eq_ok] at done
    obtain ⟨_, ⟨_, rfl⟩, _, inserted, rfl, rfl, rfl⟩ := done
    rw [Tables.eq_of_insertMessage inserted]
    refine ⟨⟨?_, swept.stones⟩, rfl⟩
    simp only [enter, record, store, Table.contents_append, swept.messages, List.map_append]
    rfl

theorem Holds.fetch (holds : accounts.Holds t) {request : FetchRequest} {now : UInt64}
    {envelopes : List StoredEnvelope} {event : AuditEvent} {t' : Tables}
    (done : fetchIn P t request now = .ok (envelopes, event, t')) :
    Enters P accounts (.fetch request now) (.fetched envelopes) event t' := by
  have swept := holds.swept now
  simp only [fetchIn, bind_eq_ok, Tables.purgeExpiredIn_eq_ok, Except.ok.injEq,
    Prod.mk.injEq] at done
  obtain ⟨_, _, _, ⟨_, rfl⟩, _, _, _, _, _, recorded, _, _, _, _, rfl, rfl, rfl⟩ := done
  rw [(Tables.eq_of_recordNonce recorded).2]
  exact ⟨⟨swept.messages, swept.stones⟩, rfl⟩

theorem Holds.acknowledge (holds : accounts.Holds t) (sound : t.Sound P) {request : AckRequest}
    {now : UInt64} {outcome : AckOutcome} {event : AuditEvent} {t' : Tables}
    (done : acknowledgeIn P t request now = .ok (outcome, event, t')) :
    Enters P accounts (.acknowledge request now) (.acknowledged outcome) event t' := by
  have swept := holds.swept now
  simp only [acknowledgeIn, bind_eq_ok, Tables.purgeExpiredIn_eq_ok] at done
  obtain ⟨_, _, _, ⟨_, rfl⟩, _, _, _, _, done⟩ := done
  split at done
  · simp only [bind_eq_ok, Except.ok.injEq, Prod.mk.injEq] at done
    obtain ⟨_, _, rfl, rfl, rfl⟩ := done
    exact ⟨⟨swept.messages, swept.stones⟩, rfl⟩
  · next row found =>
    simp only [bind_eq_ok, Except.ok.injEq, Prod.mk.injEq] at done
    obtain ⟨_, _, deleteAfter, deadline, _, buried, rfl, rfl, rfl⟩ := done
    rw [Tables.eq_of_upsertTombstone buried, tombstone_deadline deadline]
    refine ⟨⟨?_, ?_⟩, rfl⟩
    · simp only [enter, record, bury, Tables.deleteMessage, Table.deleteWhere, Table.contents_keep,
        swept.messages, List.filter_map]
      refine congrArg _ (List.filter_congr fun sent _ => ?_)
      simp [Accounts.row, Mailbox.messageOf]
    · -- A message that is found has no tombstone yet, so none is replaced.
      have fresh : ¬ (t.swept now.toNat).tombstones.exists? (fun stone => stone.key =
          TombstoneRow.key ⟨request.queueId.toList, request.messageId.toList,
            now.toNat + 604800⟩) = true := by
        intro present
        obtain ⟨stone, standing, same⟩ := List.any_eq_true.mp present
        have member := List.mem_of_find?_eq_some found
        have key := List.find?_some found
        simp only [decide_eq_true_eq] at key same
        refine sound.apart row ((Table.sublist_keep _ _).subset member) stone
          ((Table.sublist_keep _ _).subset standing) ?_
        rw [key.1, key.2]
        exact same
      simp only [enter, record, bury, Tables.deleteMessage, Table.upsert, if_neg fresh,
        Table.contents_append, swept.stones]

theorem Holds.deleteMailbox (holds : accounts.Holds t) {request : DeleteMailboxRequest}
    {now : UInt64} {deleted : Bool} {event : AuditEvent} {t' : Tables}
    (done : deleteMailboxIn P t request now = .ok (deleted, event, t')) :
    Enters P accounts (.deleteMailbox request now) (.mailboxDeleted deleted) event t' := by
  have swept := holds.swept now
  simp only [deleteMailboxIn, bind_eq_ok, Tables.purgeExpiredIn_eq_ok, Except.ok.injEq,
    Prod.mk.injEq] at done
  obtain ⟨_, _, _, ⟨_, rfl⟩, _, _, _, _, _, recorded, _, _, rfl, rfl, rfl⟩ := done
  rw [(Tables.eq_of_recordNonce recorded).2]
  refine ⟨⟨?_, ?_⟩, rfl⟩
  · simp only [enter, record, drop, Tables.deleteMailboxRow, Table.deleteWhere,
      Table.contents_keep, Tables.insertRetiredQueue, swept.messages, List.filter_map]
    refine congrArg _ (List.filter_congr fun sent _ => ?_)
    simp [row, Mailbox.messageOf]
  · simp only [enter, record, drop, Tables.deleteMailboxRow, Table.deleteWhere,
      Table.contents_keep, Tables.insertRetiredQueue, swept.stones]
    exact List.filter_congr fun stone _ => by simp

/-- The books agree with the relay. -/
structure Balances (accounts : Accounts) (r : Relay) : Prop where
  holds : accounts.Holds r.image.tables
  events : r.auditEvents = accounts.events

theorem enter_error (accounts : Accounts) (call : Call P) (e : LabError) :
    accounts.enter (call, .error e) = accounts := by
  cases call <;> rfl

/-- The transaction of a call that enters its event. -/
theorem Balances.transact {α : Type} {r : Relay} (balances : accounts.Balances r) {call : Call P}
    {wrap : α → Answer} {body : Except LabError (Committed α)}
    (books : ∀ value event t', body = .ok (value, event, t') →
      Enters P accounts call (wrap value) event t') :
    (accounts.enter (call, (r.transact body).1.map wrap)).Balances (r.transact body).2 := by
  cases body with
  | error e =>
      rw [Relay.transact, Except.map, enter_error]
      exact balances
  | ok committed =>
      obtain ⟨value, event, t'⟩ := committed
      obtain ⟨holds, events⟩ := books value event t' rfl
      exact ⟨holds, (congrArg (· ++ [event]) balances.events).trans events.symm⟩

/-- A sweep of its own. -/
theorem Balances.purge {r : Relay} (balances : accounts.Balances r) {now : UInt64}
    (fits : now.toNat < 2 ^ 63) :
    (r.purgeExpired now).1 = .ok (accounts.expired now) ∧
      (accounts.purge now).Balances (r.purgeExpired now).2 := by
  rw [Relay.purgeExpired, Tables.purgeExpiredIn_of_fits _ fits, balances.holds.expired]
  refine ⟨rfl, ?_⟩
  have swept := balances.holds.swept now
  rw [Accounts.purge]
  split
  · next found =>
    refine ⟨⟨swept.messages, swept.stones⟩, (if_pos found).trans ?_⟩
    rw [balances.events]
    rfl
  · next none =>
    refine ⟨⟨swept.messages, swept.stones⟩, (if_neg none).trans ?_⟩
    rw [balances.events]
    rfl

theorem purgeExpired_of_late (r : Relay) {now : UInt64} (late : ¬ now.toNat < 2 ^ 63) :
    r.purgeExpired now = (.error .storage, r) := by
  simp only [Relay.purgeExpired, purgeExpiredIn, toI64, if_neg late, error_bind]

theorem length_sweep (accounts : Accounts) (now : UInt64) :
    (accounts.sweep now).messages.length =
      accounts.messages.countP fun sent => now < sent.expiresAt :=
  List.countP_eq_length_filter.symm

theorem messages_purge (accounts : Accounts) (now : UInt64) :
    (accounts.purge now).messages = (accounts.sweep now).messages := by
  rw [Accounts.purge]
  split <;> rfl

/-- The count is taken after a sweep. -/
theorem Balances.count {r : Relay} (balances : accounts.Balances r) {now : UInt64}
    (fits : now.toNat < 2 ^ 63) :
    (r.queuedMessageCountAt now).1 =
        .ok (accounts.messages.countP fun sent => now < sent.expiresAt) ∧
      (accounts.purge now).Balances (r.queuedMessageCountAt now).2 := by
  obtain ⟨reply, later⟩ := balances.purge fits
  have split : r.purgeExpired now = (.ok (accounts.expired now), (r.purgeExpired now).2) :=
    Prod.ext reply rfl
  rw [Relay.queuedMessageCountAt, split]
  refine ⟨congrArg Except.ok ?_, later⟩
  rw [later.holds.messages, List.length_map, messages_purge, length_sweep]

/-- A new handle has recorded nothing. -/
theorem Balances.reopen {r : Relay} (balances : accounts.Balances r) (current : r.Current)
    (now : UInt64) : (∃ e, r.reopen now = (.error e, r)) ∨ (r.reopen now).1 = .ok () ∧
      Balances { accounts.sweep now with events := [] } (r.reopen now).2 := by
  rw [Relay.reopen]
  cases opened : openAt (some r.image) now with
  | error e => exact .inl ⟨e, rfl⟩
  | ok r' =>
      obtain ⟨_, _, rfl⟩ := openAt_eq_ok.mp opened
      have swept := balances.holds.swept now
      rw [Image.migrated_eq_self current.version current.manifest]
      exact .inr ⟨rfl, ⟨swept.messages, swept.stones⟩, rfl⟩

/-- Every call is entered. -/
theorem Balances.step {r : Relay} (balances : accounts.Balances r) (current : r.Current)
    (sound : r.image.tables.Sound P) (call : Call P) :
    (accounts.enter (call, (r.step P call).1)).Balances (r.step P call).2 := by
  cases call with
  | register => exact balances.transact fun _ _ _ => balances.holds.register
  | enqueue => exact balances.transact fun _ _ _ => balances.holds.enqueue
  | fetch => exact balances.transact fun _ _ _ => balances.holds.fetch
  | acknowledge => exact balances.transact fun _ _ _ => balances.holds.acknowledge sound
  | deleteMailbox => exact balances.transact fun _ _ _ => balances.holds.deleteMailbox
  | purgeExpired now =>
      simp only [Relay.step, Prod.map_fst, Prod.map_snd, id]
      by_cases fits : now.toNat < 2 ^ 63
      · obtain ⟨reply, later⟩ := balances.purge fits
        rw [reply]
        exact later
      · rw [purgeExpired_of_late r fits]
        exact balances
  | queuedMessageCountAt now =>
      simp only [Relay.step, Prod.map_fst, Prod.map_snd, id]
      by_cases fits : now.toNat < 2 ^ 63
      · obtain ⟨reply, later⟩ := balances.count fits
        rw [reply]
        exact later
      · rw [Relay.queuedMessageCountAt, purgeExpired_of_late r fits]
        exact balances
  | reopen now =>
      simp only [Relay.step, Prod.map_fst, Prod.map_snd, id]
      obtain ⟨e, refused⟩ | ⟨reply, later⟩ := balances.reopen current now
      · rw [refused]
        exact balances
      · rw [reply]
        exact later

theorem of_concat (entries : List (Call P × Reply)) (entry : Call P × Reply) :
    Accounts.of (entries ++ [entry]) = (Accounts.of entries).enter entry := by
  rw [Accounts.of, List.foldl_append]
  rfl

/-- The books of a whole run. -/
theorem balances_after (calls : List (Call P)) :
    (Accounts.of (Relay.history P calls)).Balances (Relay.after P calls) := by
  induction calls using List.reverseRecOn with
  | nil => exact ⟨⟨rfl, rfl⟩, rfl⟩
  | append_singleton calls call ih =>
      rw [Relay.history_concat, Relay.after_concat, of_concat]
      refine ih.step (Relay.current_after calls) ?_ call
      exact (Relay.checked_after calls).sound fun q => Relay.sound_after calls q

end Accounts

namespace Relay

/-- The books account for the relay. In every run, with any clock values, the messages of all
mailboxes in the order of their acceptance, the tombstones and the events of the handle
are what the replies say, and so is every count that the relay reports: a sweep deletes the
messages that have expired by then, and the others are counted. -/
theorem books_balance (calls : List (Call P)) (now : UInt64) :
    let r := Relay.after P calls
    let accounts := Accounts.of (Relay.history P calls)
    r.image.tables.messages.contents = accounts.messages.map Accounts.row ∧
    r.image.tables.tombstones.contents = accounts.stones ∧
    r.auditEvents = accounts.events ∧ r.tombstoneCount = accounts.stones.length ∧
    (r.step P (.purgeExpired now)).1 =
      (if now.toNat < 2 ^ 63 then
        .ok (.purged (accounts.messages.countP fun sent => sent.expiresAt ≤ now))
      else .error .storage) ∧
    (r.step P (.queuedMessageCountAt now)).1 =
      (if now.toNat < 2 ^ 63 then
        .ok (.counted (accounts.messages.countP fun sent => now < sent.expiresAt))
      else .error .storage) := by
  intro r accounts
  have balances : accounts.Balances r := Accounts.balances_after calls
  refine ⟨balances.holds.messages, balances.holds.stones, balances.events,
    congrArg List.length balances.holds.stones, ?_, ?_⟩
  · split
    · next fits => exact congrArg (Except.map _) (balances.purge fits).1
    · next late =>
      simp only [step, Accounts.purgeExpired_of_late r late]
      rfl
  · split
    · next fits => exact congrArg (Except.map _) (balances.count fits).1
    · next late =>
      simp only [step, queuedMessageCountAt, Accounts.purgeExpired_of_late r late]
      rfl

end Relay

end SecureMessenger
