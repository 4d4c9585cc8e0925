import SecureMessenger.Relay.Opening
import SecureMessenger.Relay.Representation

/-!
# Restarting the relay

Every image that the operations produce is accepted again, because the tables are
sound: closing and reopening the relay is an expiry sweep. Since every operation
begins with a sweep of its own, at a time that is no earlier, an additional sweep
is invisible. Two relays whose tables agree up to rows that have expired give the
same answers from then on. The one exception is the number that an explicit purge
reports, which counts the rows that are still there.
-/

namespace SecureMessenger

open Fallible Machine

variable {P : Primitives}

namespace Relay

theorem retiredOnce_after (calls : List (Call P)) :
    ((Relay.after P calls).image.tables.retiredQueues.contents.map RetiredQueueRow.key).Nodup :=
  tables_after (fun t => (t.retiredQueues.contents.map RetiredQueueRow.key).Nodup)
    (fun once committed => (Call.commits_arises committed).retiredOnce once) List.nodup_nil calls

/-- Every key, check and foreign key of the schema holds after every run. -/
theorem intact_after (calls : List (Call P)) : (Relay.after P calls).image.Intact := by
  have checked := checked_after calls
  have sound := checked.sound (sound_after calls)
  have each := fun q => sound_after calls q
  have current := current_after (P := P) calls
  constructor
  case messageParents => exact sound.messageParent
  case tombstoneParents => exact sound.tombstoneParent
  case requestNonceParents => exact sound.nonceParent
  case mailboxChecks => exact checked.mailboxes
  case messageChecks =>
    intro row member
    rw [Image.messageChecks_of_not_legacy row (current.manifest ▸ Image.current_ne_legacy)]
    exact (checked.messages row member).2
  case tombstoneChecks => exact fun row member => (checked.tombstones row member).2
  case requestNonceChecks => exact fun row member => (checked.requestNonces row member).2
  case registrationNonceChecks => exact checked.registrationNonces
  case retiredQueueChecks => exact checked.retiredQueues
  case mailboxKeys =>
    refine Table.nodup_map_of_parts MailboxRow.queueId (fun a b same => same) fun row member => ?_
    have length := MailboxRow.queueId_length (checked.mailboxes row member)
    have single := (each ⟨row.queueId, length⟩).single
    change (((Relay.after P calls).mailbox P ⟨row.queueId, length⟩).rows.map _).Nodup
    cases rows : ((Relay.after P calls).mailbox P ⟨row.queueId, length⟩).rows with
    | nil => exact List.nodup_nil
    | cons only rest =>
        rw [rows, List.length_cons] at single
        rw [List.length_eq_zero_iff.mp (show rest.length = 0 by omega)]
        exact List.nodup_singleton _
  case messageKeys =>
    refine Table.nodup_map_prod fun row member => ?_
    exact (each ⟨row.queueId, (checked.messages row member).1⟩).distinct
  case tombstoneKeys =>
    refine Table.nodup_map_prod fun row member => ?_
    exact (each ⟨row.queueId, (checked.tombstones row member).1⟩).tombstonesDistinct
  case requestNonceKeys =>
    refine Table.nodup_map_prod fun row member => ?_
    exact (each ⟨row.queueId, (checked.requestNonces row member).1⟩).noncesDistinct
  case registrationNonceKeys =>
    refine Table.nodup_map_prod fun row member => ?_
    have length := RegistrationNonceRow.queueId_length (checked.registrationNonces row member)
    exact (each ⟨row.queueId, length⟩).registrationsDistinct
  case retiredQueueKeys => exact retiredOnce_after calls

theorem openable_after (calls : List (Call P)) : (Relay.after P calls).image.Openable :=
  ⟨intact_after calls, .inl ⟨(current_after calls).version, (current_after calls).manifest⟩⟩

/-- The reply of a call is the answer of its transaction. -/
theorem step_reply {r : Relay} (openable : r.image.Openable) (current : r.Current)
    (call : Call P) : (r.step P call).1 = (call.commits P r.image.tables).map Prod.fst := by
  have transacted : ∀ {α : Type} (wrap : α → Answer) (body : Except LabError (Committed α)),
      (r.transact body).1.map wrap =
        (body >>= fun c => Except.ok (wrap c.1, c.2.2)).map Prod.fst := by
    intro α wrap body
    cases body <;> rfl
  cases call with
  | register request now => exact transacted _ (registerIn P r.image.tables request now)
  | enqueue request now => exact transacted _ (enqueueIn P r.image.tables request now)
  | fetch request now => exact transacted _ (fetchIn P r.image.tables request now)
  | acknowledge request now => exact transacted _ (acknowledgeIn P r.image.tables request now)
  | deleteMailbox request now => exact transacted _ (deleteMailboxIn P r.image.tables request now)
  | purgeExpired now =>
      rw [Relay.step, purgeExpired, Call.commits]
      cases purgeExpiredIn r.image.tables now <;> rfl
  | queuedMessageCountAt now =>
      rw [Relay.step, queuedMessageCountAt, purgeExpired, Call.commits]
      cases purgeExpiredIn r.image.tables now <;> rfl
  | reopen now =>
      rw [Relay.step, reopen, Call.commits, openAt_of_openable openable,
        Image.migrated_eq_self current.version current.manifest]
      cases purgeExpiredIn r.image.tables now <;> rfl

/-- The tables after a call are those its transaction commits. -/
theorem step_tables {r : Relay} (openable : r.image.Openable) (current : r.Current)
    {call : Call P} {c : Answer × Tables} (committed : call.commits P r.image.tables = .ok c) :
    (r.step P call).2.image.tables = c.2 := by
  have reply := step_reply openable current call
  rw [committed] at reply
  obtain ⟨tables, again, image⟩ := step_ok current reply
  rw [image, Except.ok.inj (committed.symm.trans again)]

end Relay

/-- The answer without the number of rows that a purge found. -/
def Answer.withoutCount : Answer → Answer
  | .purged _ => .purged 0
  | answer => answer

namespace Call

variable {t t' : Tables}

/-- What follows a sweep and ignores the number of deleted rows sees only the rows that
are left. -/
theorem purge_congr {α : Type} {now : UInt64} (same : t.swept now.toNat = t'.swept now.toNat)
    (rest : Nat × Tables → Except LabError α)
    (ignores : ∀ deleted deleted' swept, rest (deleted, swept) = rest (deleted', swept)) :
    (purgeExpiredIn t now >>= rest) = (purgeExpiredIn t' now >>= rest) := by
  by_cases fits : now.toNat < 2 ^ 63
  · rw [t.purgeExpiredIn_of_fits fits, t'.purgeExpiredIn_of_fits fits, ok_bind, ok_bind, same]
    exact ignores _ _ _
  · have large : toI64 now = .error .storage := if_neg fits
    rw [purgeExpiredIn, purgeExpiredIn, large]
    rfl

/-- An operation reads the tables only after its own sweep. -/
theorem commits_congr {early : Nat} (same : t.swept early = t'.swept early) {call : Call P}
    (later : early ≤ call.clock) :
    (call.commits P t).map (fun c => (c.1.withoutCount, c.2)) =
      (call.commits P t').map (fun c => (c.1.withoutCount, c.2)) := by
  have same : t.swept call.clock = t'.swept call.clock := by
    rw [← t.swept_swept (Int.ofNat_le.mpr later), same, t'.swept_swept (Int.ofNat_le.mpr later)]
  cases call with
  | register request now =>
      have body : registerIn P t request now = registerIn P t' request now :=
        bind_congr fun _ => bind_congr fun _ => purge_congr same _ fun _ _ _ => rfl
      rw [commits, commits, body]
  | enqueue request now =>
      have body : enqueueIn P t request now = enqueueIn P t' request now :=
        bind_congr fun _ => bind_congr fun _ => purge_congr same _ fun _ _ _ => rfl
      rw [commits, commits, body]
  | fetch request now =>
      have body : fetchIn P t request now = fetchIn P t' request now :=
        bind_congr fun _ => purge_congr same _ fun _ _ _ => rfl
      rw [commits, commits, body]
  | acknowledge request now =>
      have body : acknowledgeIn P t request now = acknowledgeIn P t' request now :=
        bind_congr fun _ => purge_congr same _ fun _ _ _ => rfl
      rw [commits, commits, body]
  | deleteMailbox request now =>
      have body : deleteMailboxIn P t request now = deleteMailboxIn P t' request now :=
        bind_congr fun _ => purge_congr same _ fun _ _ _ => rfl
      rw [commits, commits, body]
  | purgeExpired now =>
      have masked : ∀ purged : Except LabError (Nat × Tables),
          (purged >>= fun p => Except.ok (Answer.purged p.1, p.2)).map
            (fun c => (c.1.withoutCount, c.2)) =
          purged >>= fun p => Except.ok (Answer.purged 0, p.2) := by
        intro purged
        cases purged <;> rfl
      exact (masked _).trans ((purge_congr same _ fun _ _ _ => rfl).trans (masked _).symm)
  | queuedMessageCountAt now | reopen now =>
      exact congrArg _ (purge_congr same _ fun _ _ _ => rfl)

end Call

namespace Relay

/-- A reply without the number of rows that a purge found. -/
def withoutCount (reply : Reply) : Reply := reply.map Answer.withoutCount

/-- Two reachable relays whose tables agree up to rows that have expired. -/
structure Agree (P : Primitives) (time : Nat) (r r' : Relay) : Prop where
  reached : ∃ calls, r = Relay.after P calls
  reached' : ∃ calls, r' = Relay.after P calls
  same : r.image.tables.swept time = r'.image.tables.swept time

/-- Agreement is not lost, and until then shows in no reply. -/
theorem Agree.step {time : Nat} {r r' : Relay} (agree : Agree P time r r') {call : Call P}
    (later : time ≤ call.clock) :
    withoutCount (r.step P call).1 = withoutCount (r'.step P call).1 ∧
      Agree P time (r.step P call).2 (r'.step P call).2 := by
  obtain ⟨⟨calls, rfl⟩, ⟨calls', rfl⟩, same⟩ := agree
  have alike := Call.commits_congr same later
  have reply := step_reply (openable_after calls) (current_after calls) call
  have reply' := step_reply (openable_after calls') (current_after calls') call
  have next : ∀ calls, ∃ calls', ((Relay.after P calls).step P call).2 = Relay.after P calls' :=
    fun calls => ⟨calls ++ [call], (after_concat calls call).symm⟩
  cases committed : call.commits P (Relay.after P calls).image.tables with
  | error e =>
      cases committed' : call.commits P (Relay.after P calls').image.tables with
      | error e' =>
          rw [committed, committed'] at alike
          cases alike
          rw [committed] at reply
          rw [committed'] at reply'
          refine ⟨by rw [reply, reply'], next calls, next calls', ?_⟩
          rw [step_error reply, step_error reply']
          exact same
      | ok result =>
          rw [committed, committed'] at alike
          cases alike
  | ok result =>
      cases committed' : call.commits P (Relay.after P calls').image.tables with
      | error e' =>
          rw [committed, committed'] at alike
          cases alike
      | ok result' =>
          rw [committed, committed'] at alike
          obtain ⟨answers, tables⟩ := Prod.mk.inj (Except.ok.inj alike)
          rw [committed] at reply
          rw [committed'] at reply'
          refine ⟨?_, next calls, next calls', ?_⟩
          · rw [reply, reply']
            exact congrArg Except.ok answers
          · rw [step_tables (openable_after calls) (current_after calls) committed,
              step_tables (openable_after calls') (current_after calls') committed', tables]

/-- A relay that was just reopened agrees with the one that was not. -/
theorem agree_reopened (calls : List (Call P)) {now : UInt64} (fits : now.toNat < 2 ^ 63) :
    Agree P now.toNat (Relay.after P (calls ++ [.reopen now])) (Relay.after P calls) := by
  refine ⟨⟨_, rfl⟩, ⟨_, rfl⟩, ?_⟩
  have committed : (Call.reopen (P := P) now).commits P (Relay.after P calls).image.tables =
      .ok (.reopened, (Relay.after P calls).image.tables.swept now.toNat) := by
    rw [Call.commits, Tables.purgeExpiredIn_of_fits _ fits]
    rfl
  rw [after_concat, step_tables (openable_after calls) (current_after calls) committed]
  exact Tables.swept_swept _ (Int.le_refl _)

end Relay

/-- Opening, migrating and restarting. An image is opened exactly if its constraints hold
and its version and manifest belong together, at a time that the database can hold.
Then it is at the current schema with its unexpired rows, except that the messages of a
legacy image are gone, and opening it again changes nothing; otherwise it is left as it
is. Every image that the operations produce is opened again and gives what an explicit
purge gives. So a restart between two calls shows in no later reply, apart from the
number of rows that an explicit purge reports. -/
theorem opening_and_restarting :
    (∀ (image : Image) (now : UInt64),
      ((∃ r, openAt (some image) now = .ok r) ↔ image.Openable ∧ now.toNat < 2 ^ 63) ∧
      (∀ r, openAt (some image) now = .ok r → Opens image now r) ∧
      ∀ e, openAt (some image) now = .error e → image.opened now = image) ∧
    ∀ (calls : List (Call P)) (now : UInt64), now.toNat < 2 ^ 63 →
      openAt (some (Relay.after P calls).image) now =
        .ok ⟨((Relay.after P calls).purgeExpired now).2.image, []⟩ ∧
      ∀ later : List (Call P), (∀ call ∈ later, now.toNat ≤ call.clock) →
        (trace (Relay.step P) (Relay.after P (calls ++ [.reopen now])) later).map
            (fun entry => (entry.1, Relay.withoutCount entry.2)) =
          (trace (Relay.step P) (Relay.after P calls) later).map
            (fun entry => (entry.1, Relay.withoutCount entry.2)) := by
  refine ⟨fun image now => ⟨?_, fun r => opens_of_ok, ?_⟩, fun calls now fits => ⟨?_, ?_⟩⟩
  · constructor
    · rintro ⟨r, opened⟩
      obtain ⟨openable, fits, _⟩ := openAt_eq_ok.mp opened
      exact ⟨openable, fits⟩
    · rintro ⟨openable, fits⟩
      exact ⟨_, openAt_eq_ok.mpr ⟨openable, fits, rfl⟩⟩
  · intro e failed
    rw [opened_eq, failed]
    rfl
  · refine openAt_eq_ok.mpr ⟨Relay.openable_after calls, fits, ?_⟩
    rw [Relay.purgeExpired, Tables.purgeExpiredIn_of_fits _ fits, Image.migrated_eq_self
      (Relay.current_after calls).version (Relay.current_after calls).manifest]
    rfl
  · intro later notBefore
    refine trace_congr Relay.withoutCount (Relay.Agree P now.toNat)
      (fun call : Call P => now.toNat ≤ call.clock) ?_ (Relay.agree_reopened calls fits) notBefore
    intro r r' call agree late
    exact agree.step late

namespace Upgrade

def owner : MailboxOwner .symbolic := .symbolic 1

/-- A database of the first schema, with a mailbox, a message and an expired tombstone. -/
def legacy : Image where
  userVersion := 1
  manifest := referenceManifest legacySchemaDdl
  tables :=
    { Tables.empty with
      mailboxes := Table.empty.append
        (Mailbox.rowOf (owner.registration (.fill 16 5) 160) 100)
      messages := Table.empty.append
        (Mailbox.messageOf (owner.senderCapability.authorize (.fill 16 1) [1] 400) 400)
      tombstones := Table.empty.append
        { queueId := owner.queueId.toList, messageId := (FixedBytes.fill 16 2).toList,
          deleteAfter := 90 } }

theorem openable_legacy : legacy.Openable :=
  ⟨Image.intact_iff.mp ⟨by decide +kernel, by decide +kernel⟩, .inr ⟨.inr rfl, .inr rfl⟩⟩

/-- A message that has expired when the relay restarts. -/
def calls : List (Call .symbolic) :=
  [.register (owner.registration (.fill 16 5) 160) 100,
    .enqueue (owner.senderCapability.authorize (.fill 16 1) [1] 120) 101]

def later : List (Call .symbolic) :=
  [.fetch (owner.receiverCapability.authorizeFetch (.fill 16 7) 300) 200, .purgeExpired 210]

end Upgrade

open Upgrade in
theorem opening_and_restarting_upgrade :
    (∃ r, openAt (some legacy) 100 = .ok r ∧ r.image.tables.messages.contents = [] ∧
      r.image.tables.tombstones.contents = []) ∧
    (trace (Relay.step .symbolic) (Relay.after .symbolic (calls ++ [.reopen 150])) later).map
        (fun entry => (entry.1, Relay.withoutCount entry.2)) =
      (trace (Relay.step .symbolic) (Relay.after .symbolic calls) later).map
        (fun entry => (entry.1, Relay.withoutCount entry.2)) := by
  obtain ⟨images, restarts⟩ := opening_and_restarting (P := .symbolic)
  obtain ⟨accepted, opens, _⟩ := images legacy 100
  obtain ⟨r, opened⟩ := accepted.mpr ⟨openable_legacy, by decide⟩
  refine ⟨⟨r, opened, (opens r opened).messages, ?_⟩, ?_⟩
  · rw [(opens r opened).tombstones]
    decide +kernel
  · exact (restarts calls 150 (by decide)).2 later (by decide)

end SecureMessenger
