import SecureMessenger.Relay.Projection

/-!
# Every mailbox of the relay runs the mailbox machine

`Mailbox.step` turns the operations of one mailbox into a machine over the same
calls as the relay. A step of the relay is a step of that machine for the mailbox
the call is addressed to, with the same reply. Every other mailbox stands by: it
keeps its rows or loses the expired ones, and its hash may become a retired one
when the deleted queue has the same digest.

A relay that was created by the program stays at the current schema, so closing
and reopening it never migrates and at most sweeps.
-/

namespace SecureMessenger

open Fallible

variable {P : Primitives}

namespace Mailbox

/-- Keep the rows of a successful operation, or the old ones. -/
def transact {α : Type} (m : Mailbox) (wrap : α → Answer)
    (body : Except LabError (α × Mailbox)) : Reply × Mailbox :=
  match body with
  | .ok (value, m') => (.ok (wrap value), m')
  | .error e => (.error e, m)

/-- The calls addressed to a mailbox. The others name no mailbox and are not for
this machine. -/
def step (P : Primitives) (m : Mailbox) : Call P → Reply × Mailbox
  | .register request now => m.transact .registered (m.register P request now)
  | .enqueue request now => m.transact .enqueued (m.enqueue P request now)
  | .fetch request now => m.transact .fetched (m.fetch P request now)
  | .acknowledge request now => m.transact .acknowledged (m.acknowledge P request now)
  | .deleteMailbox request now => m.transact .mailboxDeleted (m.deleteMailbox P request now)
  | .purgeExpired _ | .queuedMessageCountAt _ | .reopen _ => (.error .mailboxNotFound, m)

/-- What a call that is not addressed to a mailbox can do to it. -/
inductive Bystander (collision : Prop) (now : UInt64) (m : Mailbox) : Mailbox → Prop
  | untouched : Bystander collision now m m
  | swept (representable : now.toNat < 2 ^ 63) : Bystander collision now m (m.sweep now.toNat)
  | retired (representable : now.toNat < 2 ^ 63) (collides : collision) :
      Bystander collision now m { m.sweep now.toNat with retired := true }

end Mailbox

namespace Call

/-- The transaction of a call: its answer and the tables it commits. Reopening a
database of the current schema commits a sweep. -/
def commits (P : Primitives) (t : Tables) : Call P → Except LabError (Answer × Tables)
  | register request now => do
      let (fresh, _, t) ← registerIn P t request now
      .ok (.registered fresh, t)
  | enqueue request now => do
      let (outcome, _, t) ← enqueueIn P t request now
      .ok (.enqueued outcome, t)
  | fetch request now => do
      let (envelopes, _, t) ← fetchIn P t request now
      .ok (.fetched envelopes, t)
  | acknowledge request now => do
      let (outcome, _, t) ← acknowledgeIn P t request now
      .ok (.acknowledged outcome, t)
  | deleteMailbox request now => do
      let (deleted, _, t) ← deleteMailboxIn P t request now
      .ok (.mailboxDeleted deleted, t)
  | purgeExpired now => do
      let (deleted, t) ← purgeExpiredIn t now
      .ok (.purged deleted, t)
  | queuedMessageCountAt now => do
      let (_, t) ← purgeExpiredIn t now
      .ok (.counted t.messages.contents.length, t)
  | reopen now => do
      let (_, t) ← purgeExpiredIn t now
      .ok (.reopened, t)

/-- Whether a call deletes a mailbox whose queue has the digest of `q`. -/
def retires (q : QueueId) : Call P → Bool
  | deleteMailbox request _ => digest P request.queueId.toList = digest P q.toList
  | _ => false

end Call

namespace Relay

/-- The mailbox of one queue of a relay. -/
def mailbox (P : Primitives) (r : Relay) (q : QueueId) : Mailbox := r.image.tables.mailbox P q

theorem mailbox_of_image {r r' : Relay} {tables : Tables}
    (image : r'.image = { r.image with tables }) (q : QueueId) :
    r'.mailbox P q = tables.mailbox P q := by
  rw [mailbox, image]

/-- The database is at the current schema. -/
structure Current (r : Relay) : Prop where
  version : r.image.userVersion = currentSchemaVersion
  manifest : r.image.manifest = referenceManifest currentSchemaDdl

theorem current_empty : Relay.empty.Current := ⟨rfl, rfl⟩

theorem purgeExpired_cases (r : Relay) (now : UInt64) :
    (∃ e, r.purgeExpired now = (.error e, r)) ∨
    ∃ swept, purgeExpiredIn r.image.tables now = .ok swept ∧
      (r.purgeExpired now).1 = .ok swept.1 ∧
      (r.purgeExpired now).2.image = { r.image with tables := swept.2 } := by
  rw [purgeExpired]
  cases purgeExpiredIn r.image.tables now with
  | error e => exact .inl ⟨e, rfl⟩
  | ok swept => exact .inr ⟨swept, rfl, rfl, rfl⟩

theorem queuedMessageCountAt_cases (r : Relay) (now : UInt64) :
    (∃ e, r.queuedMessageCountAt now = (.error e, r)) ∨
    ∃ swept, purgeExpiredIn r.image.tables now = .ok swept ∧
      (r.queuedMessageCountAt now).1 = .ok swept.2.messages.contents.length ∧
      (r.queuedMessageCountAt now).2.image = { r.image with tables := swept.2 } := by
  rw [queuedMessageCountAt, purgeExpired]
  cases purgeExpiredIn r.image.tables now with
  | error e => exact .inl ⟨e, rfl⟩
  | ok swept => exact .inr ⟨swept, rfl, rfl, rfl⟩

/-- The current schema needs no migration. -/
theorem migrateSchema_current {image image' : Image}
    (version : image.userVersion = currentSchemaVersion)
    (manifest : image.manifest = referenceManifest currentSchemaDdl)
    (h : migrateSchema image = .ok image') : image' = image := by
  have kind : image.kind = .current := by
    rw [Image.kind, manifest]
    rfl
  simp only [migrateSchema, version, kind, bind_eq_ok, and_self, if_true, Except.ok.injEq] at h
  obtain ⟨_, _, same⟩ := h
  exact same.symm

theorem reopen_cases {r : Relay} (current : r.Current) (now : UInt64) :
    (∃ e, r.reopen now = (.error e, r)) ∨
    ∃ swept, purgeExpiredIn r.image.tables now = .ok swept ∧ (r.reopen now).1 = .ok () ∧
      (r.reopen now).2.image = { r.image with tables := swept.2 } := by
  rw [reopen]
  cases opened : openAt (some r.image) now with
  | error e => exact .inl ⟨e, rfl⟩
  | ok r' =>
      simp only [openAt, initializeRelay, bind_eq_ok, Except.ok.injEq] at opened
      obtain ⟨_, _, _, _, image, migrated, swept, purged, rfl⟩ := opened
      rw [migrateSchema_current current.version current.manifest migrated] at purged
      refine .inr ⟨swept, purged, rfl, ?_⟩
      rw [migrateSchema_current current.version current.manifest migrated]

/-- A failed call leaves the relay as it was. -/
theorem step_error {r : Relay} {call : Call P} {e : LabError}
    (failed : (r.step P call).1 = .error e) : (r.step P call).2 = r := by
  have transacted : ∀ {α : Type} (wrap : α → Answer) (body : Except LabError (Committed α)),
      (r.transact body).1.map wrap = .error e → (r.transact body).2 = r := by
    intro α wrap body failed
    cases body with
    | error e => rfl
    | ok c => cases failed
  cases call with
  | register request now => exact transacted _ (registerIn P r.image.tables request now) failed
  | enqueue request now => exact transacted _ (enqueueIn P r.image.tables request now) failed
  | fetch request now => exact transacted _ (fetchIn P r.image.tables request now) failed
  | acknowledge request now =>
      exact transacted _ (acknowledgeIn P r.image.tables request now) failed
  | deleteMailbox request now =>
      exact transacted _ (deleteMailboxIn P r.image.tables request now) failed
  | purgeExpired now =>
      change (r.purgeExpired now).1.map _ = _ at failed
      change (r.purgeExpired now).2 = r
      obtain ⟨_, same⟩ | ⟨_, _, succeeded, _⟩ := r.purgeExpired_cases now
      · rw [same]
      · rw [succeeded] at failed
        cases failed
  | queuedMessageCountAt now =>
      change (r.queuedMessageCountAt now).1.map _ = _ at failed
      change (r.queuedMessageCountAt now).2 = r
      obtain ⟨_, same⟩ | ⟨_, _, succeeded, _⟩ := r.queuedMessageCountAt_cases now
      · rw [same]
      · rw [succeeded] at failed
        cases failed
  | reopen now =>
      change (r.reopen now).1.map _ = _ at failed
      change (r.reopen now).2 = r
      unfold reopen at failed ⊢
      cases opened : openAt (some r.image) now with
      | error e => rfl
      | ok r' =>
          rw [opened] at failed
          cases failed

/-- What a call's transaction committed, given its reply. -/
theorem transact_ok {α : Type} {r : Relay} {wrap : α → Answer}
    {body : Except LabError (Committed α)} {answer : Answer}
    (ok : (r.transact body).1.map wrap = .ok answer) :
    ∃ c, body = .ok c ∧ answer = wrap c.1 ∧
      (r.transact body).2.image = { r.image with tables := c.2.2 } := by
  cases body with
  | error e => cases ok
  | ok c =>
      cases ok
      exact ⟨c, rfl, rfl, rfl⟩

/-- A successful call answers and commits what its transaction says. -/
theorem step_ok {r : Relay} (current : r.Current) {call : Call P} {answer : Answer}
    (ok : (r.step P call).1 = .ok answer) :
    ∃ tables, call.commits P r.image.tables = .ok (answer, tables) ∧
      (r.step P call).2.image = { r.image with tables } := by
  cases call with
  | register request now =>
      obtain ⟨c, body, rfl, image⟩ := transact_ok ok
      exact ⟨c.2.2, by rw [Call.commits, body]; rfl, image⟩
  | enqueue request now =>
      obtain ⟨c, body, rfl, image⟩ := transact_ok ok
      exact ⟨c.2.2, by rw [Call.commits, body]; rfl, image⟩
  | fetch request now =>
      obtain ⟨c, body, rfl, image⟩ := transact_ok ok
      exact ⟨c.2.2, by rw [Call.commits, body]; rfl, image⟩
  | acknowledge request now =>
      obtain ⟨c, body, rfl, image⟩ := transact_ok ok
      exact ⟨c.2.2, by rw [Call.commits, body]; rfl, image⟩
  | deleteMailbox request now =>
      obtain ⟨c, body, rfl, image⟩ := transact_ok ok
      exact ⟨c.2.2, by rw [Call.commits, body]; rfl, image⟩
  | purgeExpired now =>
      change (r.purgeExpired now).1.map _ = _ at ok
      obtain ⟨_, same⟩ | ⟨swept, purged, reply, image⟩ := r.purgeExpired_cases now
      · rw [same] at ok
        cases ok
      · rw [reply] at ok
        cases ok
        exact ⟨swept.2, by rw [Call.commits, purged]; rfl, image⟩
  | queuedMessageCountAt now =>
      change (r.queuedMessageCountAt now).1.map _ = _ at ok
      obtain ⟨_, same⟩ | ⟨swept, purged, reply, image⟩ := r.queuedMessageCountAt_cases now
      · rw [same] at ok
        cases ok
      · rw [reply] at ok
        cases ok
        exact ⟨swept.2, by rw [Call.commits, purged]; rfl, image⟩
  | reopen now =>
      change (r.reopen now).1.map _ = _ at ok
      obtain ⟨_, same⟩ | ⟨swept, purged, reply, image⟩ := reopen_cases current now
      · rw [same] at ok
        cases ok
      · rw [reply] at ok
        cases ok
        exact ⟨swept.2, by rw [Call.commits, purged]; rfl, image⟩

theorem current_step {r : Relay} (current : r.Current) (call : Call P) :
    (r.step P call).2.Current := by
  cases reply : (r.step P call).1 with
  | error e =>
      rw [step_error reply]
      exact current
  | ok answer =>
      obtain ⟨_, _, image⟩ := step_ok current reply
      exact ⟨by rw [image]; exact current.version, by rw [image]; exact current.manifest⟩

theorem current_after (calls : List (Call P)) : (Relay.after P calls).Current :=
  Machine.invariant_run Relay.Current (fun _ call current => current_step current call)
    current_empty calls

/-- Transactions in lockstep with a mailbox operation give its reply and rows. -/
theorem transact_own {α : Type} {r : Relay} {q : QueueId} {wrap : α → Answer}
    {body : Except LabError (Committed α)} {body' : Except LabError (α × Mailbox)}
    (related : Lockstep (Tables.Matches P q) body body') :
    ((r.transact body).1.map wrap) = ((r.mailbox P q).transact wrap body').1 ∧
      (r.transact body).2.mailbox P q = ((r.mailbox P q).transact wrap body').2 := by
  cases related with
  | error e => exact ⟨rfl, rfl⟩
  | ok related =>
      obtain ⟨value, view⟩ := related
      exact ⟨congrArg (fun v => Except.ok (wrap v)) value, view⟩

/-- A call is answered by the mailbox it is addressed to. -/
theorem step_own (r : Relay) {q : QueueId} {call : Call P} (own : call.queueId? = some q) :
    (r.step P call).1 = ((r.mailbox P q).step P call).1 ∧
      (r.step P call).2.mailbox P q = ((r.mailbox P q).step P call).2 := by
  cases call with
  | register request now =>
      cases own
      exact transact_own (r.image.tables.registerIn_mailbox request now)
  | enqueue request now =>
      cases own
      exact transact_own (r.image.tables.enqueueIn_mailbox request now)
  | fetch request now =>
      cases own
      exact transact_own (r.image.tables.fetchIn_mailbox request now)
  | acknowledge request now =>
      cases own
      exact transact_own (r.image.tables.acknowledgeIn_mailbox request now)
  | deleteMailbox request now =>
      cases own
      exact transact_own (r.image.tables.deleteMailboxIn_mailbox request now)
  | purgeExpired | queuedMessageCountAt | reopen => cases own

/-- Some other queue has the digest of this one. -/
def Collides (P : Primitives) (q : QueueId) : Prop :=
  ∃ q' : QueueId, q' ≠ q ∧ digest P q'.toList = digest P q.toList

end Relay

namespace Call

variable {t t' : Tables} {q : QueueId} {answer : Answer}

/-- A committed call sweeps every mailbox it is not addressed to, and may retire
its hash. -/
theorem commits_other {call : Call P} (committed : call.commits P t = .ok (answer, t'))
    (other : call.queueId? ≠ some q) :
    call.clock < 2 ^ 63 ∧ t'.mailbox P q =
      { (t.mailbox P q).sweep call.clock with
        retired := (t.mailbox P q).retired || call.retires q } := by
  -- Only a deletion touches the retired hashes.
  have quiet : ∀ {m : Mailbox}, m = (t.mailbox P q).sweep call.clock → m =
      { (t.mailbox P q).sweep call.clock with retired := (t.mailbox P q).retired || false } := by
    rintro _ rfl
    rw [Bool.or_false]
    rfl
  cases call with
  | register request now =>
      obtain ⟨c, body, same⟩ := bind_eq_ok.mp committed
      cases same
      obtain ⟨representable, view⟩ :=
        Tables.registerIn_other body fun same => other (congrArg some same)
      exact ⟨representable, quiet view⟩
  | enqueue request now =>
      obtain ⟨c, body, same⟩ := bind_eq_ok.mp committed
      cases same
      obtain ⟨representable, view⟩ :=
        Tables.enqueueIn_other body fun same => other (congrArg some same)
      exact ⟨representable, quiet view⟩
  | fetch request now =>
      obtain ⟨c, body, same⟩ := bind_eq_ok.mp committed
      cases same
      obtain ⟨representable, view⟩ :=
        Tables.fetchIn_other body fun same => other (congrArg some same)
      exact ⟨representable, quiet view⟩
  | acknowledge request now =>
      obtain ⟨c, body, same⟩ := bind_eq_ok.mp committed
      cases same
      obtain ⟨representable, view⟩ :=
        Tables.acknowledgeIn_other body fun same => other (congrArg some same)
      exact ⟨representable, quiet view⟩
  | deleteMailbox request now =>
      obtain ⟨c, body, same⟩ := bind_eq_ok.mp committed
      cases same
      exact Tables.deleteMailboxIn_other body fun same => other (congrArg some same)
  | purgeExpired now | queuedMessageCountAt now | reopen now =>
      obtain ⟨swept, purged, same⟩ := bind_eq_ok.mp committed
      cases same
      obtain ⟨representable, view⟩ := Tables.purgeExpiredIn_other (P := P) q purged
      exact ⟨representable, quiet view⟩

theorem collides_of_retires (call : Call P) (other : call.queueId? ≠ some q)
    (retires : call.retires q = true) : Relay.Collides P q := by
  cases call with
  | deleteMailbox request now =>
      exact ⟨request.queueId, fun same => other (congrArg some same),
        by simpa [Call.retires] using retires⟩
  | _ => cases retires

end Call

namespace Relay

/-- A call leaves every mailbox it is not addressed to standing by. -/
theorem step_other {r : Relay} (current : r.Current) {q : QueueId} {call : Call P}
    (other : call.queueId? ≠ some q) :
    Mailbox.Bystander (Collides P q) call.now (r.mailbox P q) ((r.step P call).2.mailbox P q) := by
  cases reply : (r.step P call).1 with
  | error e =>
      rw [step_error reply]
      exact .untouched
  | ok answer =>
      obtain ⟨tables, committed, image⟩ := step_ok current reply
      obtain ⟨representable, view⟩ := Call.commits_other committed other
      rw [mailbox_of_image image, view]
      cases retires : call.retires q with
      | false =>
          rw [Bool.or_false]
          exact .swept representable
      | true =>
          rw [Bool.or_true]
          exact .retired representable (call.collides_of_retires other retires)

end Relay

end SecureMessenger
