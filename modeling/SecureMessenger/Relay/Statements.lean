import SecureMessenger.Library.Immediate
import SecureMessenger.Relay.Step

/-!
# The relay's operations, statement by statement

Several relay handles may share one database file, each with a connection of its own. Here
every operation is written as the statements that its connection executes, in the order of
the source: what is checked before the transaction, and inside it each `SELECT`, `INSERT`,
`DELETE` and migration statement on its own. `queued_message_count_at` is a sweep followed
by a query outside of its transaction, so it is two calls here.

`serve_program` says that the statements of an operation, executed without interruption, do
what the operation does in `Relay.step`. The validation that `open_at` makes before its
transaction is made again inside it, and decides nothing.
-/

namespace SecureMessenger

open Fallible Immediate

/-- The rest of a transaction on the relay's database. -/
abbrev Sql (α : Type) := Body Image LabError α

namespace Sql

variable {α : Type} (P : Primitives)

/-- A query. -/
def select (read : Tables → α) : Sql α := Body.select fun image => read image.tables

/-- A statement that changes rows and may violate a constraint. -/
def execute (update : Tables → Except LabError (Nat × Tables)) : Sql Nat :=
  Body.change fun image =>
    (update image.tables).map fun result => (result.1, { image with tables := result.2 })

/-- A check of the program between two statements. -/
def check (result : Except LabError α) : Sql α := Body.decide result

def purgeExpiredIn (now : UInt64) : Sql Nat := do
  let now ← check (toI64 now)
  let deleted ← execute fun t =>
    let (deleted, messages) := t.messages.deleteWhere (fun row => row.expiresAt ≤ now)
    .ok (deleted, { t with messages })
  let _ ← execute fun t =>
    let (deleted, tombstones) := t.tombstones.deleteWhere (fun row => row.deleteAfter ≤ now)
    .ok (deleted, { t with tombstones })
  let _ ← execute fun t =>
    let (deleted, requestNonces) := t.requestNonces.deleteWhere (fun row => row.deleteAfter ≤ now)
    .ok (deleted, { t with requestNonces })
  let _ ← execute fun t =>
    let (deleted, registrationNonces) :=
      t.registrationNonces.deleteWhere (fun row => row.deleteAfter ≤ now)
    .ok (deleted, { t with registrationNonces })
  pure deleted

def mailboxKey (queueId : QueueId) (column : KeyColumn) : Sql (Ed25519PublicKey P) := do
  let found ← select fun t => t.mailboxes.find? (fun row => row.queueId = queueId.toList)
  match found with
  | none => .fail .mailboxNotFound
  | some row => check (decodeKey P (column.read row))

def recordNonce (queueId : QueueId) (role : Role) (nonce : Nonce) (deleteAfter : UInt64) :
    Sql Unit := do
  let deleteAfter ← check (toI64 deleteAfter)
  let inserted ← execute fun t => t.insertRequestNonce
    { queueId := queueId.toList, role, nonce := nonce.toList, deleteAfter }
  check (rejectIf (inserted ≠ 1) .unauthorized)

def register (request : MailboxRegistration P) (now : UInt64) : Sql Bool := do
  let _ ← purgeExpiredIn now
  let queueHash := digest P request.queueId.toList
  let retired ← select fun t =>
    t.retiredQueues.exists? (fun row => row.queueHash = queueHash.toList)
  check (rejectIf (retired = true) .mailboxConflict)
  let existing ← select fun t =>
    t.mailboxes.find? (fun row => row.queueId = request.queueId.toList)
  match existing with
  | some row => do
      check (rejectIf (¬ (row.sendKey = request.sendKey.asBytes ∧
        row.receiveKey = request.receiveKey.asBytes ∧
        row.manageKey = request.manageKey.asBytes)) .mailboxConflict)
      let validUntil ← check (toI64 request.validUntil)
      let _ ← execute fun t => .ok (t.insertRegistrationNonce
        { queueId := request.queueId.toList, nonce := request.nonce.toList,
          deleteAfter := validUntil })
      pure false
  | none => do
      let validUntil ← check (toI64 request.validUntil)
      let recorded ← execute fun t => .ok (t.insertRegistrationNonce
        { queueId := request.queueId.toList, nonce := request.nonce.toList,
          deleteAfter := validUntil })
      check (rejectIf (recorded ≠ 1) .unauthorized)
      let createdAt ← check (toI64 now)
      let _ ← execute fun t => (t.insertMailbox
        { queueId := request.queueId.toList, sendKey := request.sendKey.asBytes,
          receiveKey := request.receiveKey.asBytes, manageKey := request.manageKey.asBytes,
          createdAt }).map fun t => (1, t)
      pure true

def enqueue (request : SendRequest) (now : UInt64) : Sql EnqueueOutcome := do
  let _ ← purgeExpiredIn now
  let sendKey ← mailboxKey P request.queueId .sendKey
  check (rejectIf (sendKey.verify (request.signingBytes P) request.signature = false)
    .unauthorized)
  let time ← check (toI64 now)
  let tombstoned ← select fun t =>
    t.tombstones.exists? (fun row => row.queueId = request.queueId.toList ∧
      row.messageId = request.messageId.toList ∧ time < row.deleteAfter)
  check (rejectIf (tombstoned = true) .messageGone)
  let existing ← select fun t =>
    t.messages.find? (fun row => row.queueId = request.queueId.toList ∧
      row.messageId = request.messageId.toList)
  match existing with
  | some row => do
      if row.ciphertext = request.packet then do
        let expiresAt ← check (toI64 request.expiresAt)
        check (rejectIf (row.expiresAt ≠ expiresAt) .messageConflict)
        pure .duplicate
      else .fail .messageConflict
  | none => do
      let expiresAt ← check (toI64 request.expiresAt)
      let _ ← execute fun t => (t.insertMessage
        { queueId := request.queueId.toList, messageId := request.messageId.toList,
          ciphertext := request.packet, expiresAt,
          senderSignature := request.signature.toList }).map fun t => (1, t)
      pure .stored

def fetch (request : FetchRequest) (now : UInt64) : Sql (List StoredEnvelope) := do
  let _ ← purgeExpiredIn now
  let receiveKey ← mailboxKey P request.queueId .receiveKey
  check (rejectIf (receiveKey.verify request.signingBytes request.signature = false)
    .unauthorized)
  recordNonce request.queueId .receive request.nonce request.validUntil
  let time ← check (toI64 now)
  let rows ← select fun t => t.messages.contents.filter
    (fun row => row.queueId = request.queueId.toList ∧ time < row.expiresAt)
  check (rows.mapM (decodeEnvelope request.queueId))

def acknowledge (request : AckRequest) (now : UInt64) : Sql AckOutcome := do
  let _ ← purgeExpiredIn now
  let receiveKey ← mailboxKey P request.queueId .receiveKey
  check (rejectIf (receiveKey.verify request.signingBytes request.signature = false)
    .unauthorized)
  let existing ← select fun t =>
    t.messages.find? (fun row => row.queueId = request.queueId.toList ∧
      row.messageId = request.messageId.toList)
  match existing with
  | none => do
      let alreadyDeleted ← select fun t =>
        t.tombstones.exists? (fun row => row.queueId = request.queueId.toList ∧
          row.messageId = request.messageId.toList)
      check (rejectIf (alreadyDeleted = false) .messageNotFound)
      pure .alreadyDeleted
  | some row => do
      check (rejectIf (digest P row.ciphertext ≠ request.packetHash) .unauthorized)
      let _ ← execute fun t =>
        .ok (1, t.deleteMessage request.queueId.toList request.messageId.toList)
      let deleteAfter ← check (toI64 (saturatingAdd now tombstoneTtlSeconds))
      let _ ← execute fun t => (t.upsertTombstone
        { queueId := request.queueId.toList, messageId := request.messageId.toList,
          deleteAfter }).map fun t => (1, t)
      pure .deleted

def deleteMailbox (request : DeleteMailboxRequest) (now : UInt64) : Sql Bool := do
  let _ ← purgeExpiredIn now
  let manageKey ← mailboxKey P request.queueId .manageKey
  check (rejectIf (manageKey.verify request.signingBytes request.signature = false)
    .unauthorized)
  recordNonce request.queueId .manage request.nonce request.validUntil
  let queueHash := digest P request.queueId.toList
  let retiredAt ← check (toI64 now)
  let _ ← execute fun t => .ok (t.insertRetiredQueue { queueHash := queueHash.toList, retiredAt })
  let deleted ← execute fun t => .ok (t.deleteMailboxRow request.queueId.toList)
  pure (deleted = 1)

/-- `validate_database_integrity`: two pragmas, each on what it finds. -/
def validateDatabaseIntegrity : Look Image :=
  .read fun image =>
    if image.foreignKeysOk = false then .refuse
    else .read fun image => if image.integrityOk = false then .refuse else .pass

def validateCurrentSchema (expected : SchemaManifest) : Look Image :=
  .read fun image => if image.manifest ≠ expected then .refuse else validateDatabaseIntegrity

/-- The version and the manifest are read one after the other. -/
def validateSchemaForOpen : Look Image :=
  .read fun image =>
    let version := image.userVersion
    if ¬ (0 ≤ version ∧ version ≤ currentSchemaVersion) then .refuse
    else .read fun image =>
      if (version = currentSchemaVersion ∧ image.kind = .current) ∨
          ((version = 0 ∨ version = 1) ∧ (image.kind = .empty ∨ image.kind = .legacy)) then
        validateDatabaseIntegrity
      else .refuse

/-- A statement that changes the schema. -/
def alter (update : Image → Image) : Sql Nat := Body.change fun image => .ok (0, update image)

def createTables : List TableShape → Sql Unit
  | [] => pure ()
  | shape :: rest => do
      let _ ← alter fun image => { image with manifest := image.manifest.createTable shape }
      createTables rest

def migrateSchema : Sql Unit := do
  validateSchemaForOpen.within .storage
  let version ← Body.select Image.userVersion
  let kind ← Body.select Image.kind
  if version = currentSchemaVersion ∧ kind = .current then pure ()
  else if (version = 0 ∨ version = 1) ∧ kind = .empty then do
    createTables currentSchemaDdl
    let _ ← alter fun image => { image with userVersion := currentSchemaVersion }
    (validateCurrentSchema (referenceManifest currentSchemaDdl)).within .storage
  else if (version = 0 ∨ version = 1) ∧ kind = .legacy then do
    let _ ← execute fun t => .ok (t.messages.contents.length, { t with messages := .empty })
    let _ ← alter fun image => { image with manifest := image.manifest.dropTable .messages }
    let _ ← alter fun image =>
      { image with manifest := image.manifest.createTable currentMessagesDdl }
    let _ ← alter fun image => { image with userVersion := currentSchemaVersion }
    (validateCurrentSchema (referenceManifest currentSchemaDdl)).within .storage
  else .fail .storage

end Sql

variable (P : Primitives)

/-- One call on a handle: everything up to the end of one transaction, or one query. -/
inductive HandleCall
  | openAt (now : UInt64)
  | register (request : MailboxRegistration P) (now : UInt64)
  | enqueue (request : SendRequest) (now : UInt64)
  | fetch (request : FetchRequest) (now : UInt64)
  | acknowledge (request : AckRequest) (now : UInt64)
  | deleteMailbox (request : DeleteMailboxRequest) (now : UInt64)
  | purgeExpired (now : UInt64)
  | messageCount
  | tombstoneCount

/-- A call without a look ahead of its transaction. -/
def transaction {α : Type} (admission : Except LabError Unit) (answer : α → Answer)
    (body : Sql α) : Operation Image LabError Answer where
  admission := admission
  look := .pass
  last := .transact (do
    let value ← body
    pure (answer value))

/-- What each call executes. -/
def program : HandleCall P → Operation Image LabError Answer
  | .openAt now =>
      { admission := .ok ()
        -- The preflight and the validation of the opened connection.
        look := Sql.validateSchemaForOpen.andThen Sql.validateSchemaForOpen
        last := .transact (do
          Sql.migrateSchema
          let _ ← Sql.purgeExpiredIn now
          pure .reopened) }
  | .register request now =>
      transaction (do
        validateRequestTime request.validUntil now
        rejectIf (request.manageKey.verify request.signingBytes request.signature = false)
          .unauthorized) .registered (Sql.register P request now)
  | .enqueue request now =>
      transaction (do
        rejectIf (request.packet = [] ∨ maxPacketBytes < request.packet.length) .invalidPayload
        validateMessageExpiry request.expiresAt now) .enqueued (Sql.enqueue P request now)
  | .fetch request now =>
      transaction (validateRequestTime request.validUntil now) .fetched (Sql.fetch P request now)
  | .acknowledge request now =>
      transaction (validateRequestTime request.validUntil now) .acknowledged
        (Sql.acknowledge P request now)
  | .deleteMailbox request now =>
      transaction (validateRequestTime request.validUntil now) .mailboxDeleted
        (Sql.deleteMailbox P request now)
  | .purgeExpired now => transaction (.ok ()) .purged (Sql.purgeExpiredIn now)
  | .messageCount =>
      { admission := .ok ()
        look := .pass
        last := .read fun image => .ok (.counted image.tables.messages.contents.length) }
  | .tombstoneCount =>
      { admission := .ok ()
        look := .pass
        last := .read fun image => .ok (.counted image.tables.tombstones.contents.length) }

variable {P}

/-! The statements of an operation against its body in the atomic model. -/

namespace Sql

variable {α β : Type} {image : Image}

/-- An image with other tables. -/
def onTables (image : Image) (tables : Tables) : Image := { image with tables }

@[simp] theorem tables_onTables (image : Image) (t : Tables) : (onTables image t).tables = t := rfl

@[simp] theorem onTables_onTables (image : Image) (t t' : Tables) :
    onTables (onTables image t) t' = onTables image t' := rfl

@[simp] theorem onTables_self (image : Image) : onTables image image.tables = image := rfl

/-- The statements gave the value of the atomic body and left its tables. -/
def Leaves (image : Image) (result : α × Image) (committed : Committed α) : Prop :=
  result = (committed.1, onTables image committed.2.2)

theorem eval_check (result : Except LabError α) :
    (check result).eval image = result.map fun value => (value, image) :=
  Body.eval_decide ..

theorem eval_insert (update : Tables → Except LabError Tables) :
    (execute fun t => (update t).map fun t => (1, t)).eval image =
      (update image.tables).map fun t => (1, onTables image t) := by
  rw [execute, Body.eval_change]
  cases update image.tables <;> rfl

theorem eval_purgeExpiredIn (now : UInt64) :
    (purgeExpiredIn now).eval image =
      (SecureMessenger.purgeExpiredIn image.tables now).map
        fun swept => (swept.1, onTables image swept.2) := by
  unfold purgeExpiredIn SecureMessenger.purgeExpiredIn
  cases toI64 now <;> rfl

theorem eval_mailboxKey (queueId : QueueId) (column : KeyColumn) :
    (mailboxKey P queueId column).eval image =
      (SecureMessenger.mailboxKey P image.tables queueId column).map fun key => (key, image) := by
  rw [mailboxKey, SecureMessenger.mailboxKey, select, Body.eval_bind, Body.eval_select, ok_bind]
  cases image.tables.mailboxes.find? (fun row => row.queueId = queueId.toList) with
  | none => rfl
  | some row => exact eval_check _

theorem eval_recordNonce (queueId : QueueId) (role : Role) (nonce : Nonce)
    (deleteAfter : UInt64) :
    (recordNonce queueId role nonce deleteAfter).eval image =
      (SecureMessenger.recordNonce image.tables queueId role nonce deleteAfter).map
        fun t => ((), onTables image t) := by
  unfold recordNonce SecureMessenger.recordNonce
  cases toI64 deleteAfter with
  | error e => rfl
  | ok time =>
      rw [Body.eval_bind, eval_check]
      simp only [Except.map, ok_bind]
      rw [execute, Body.eval_bind, Body.eval_change]
      cases image.tables.insertRequestNonce _ with
      | error e => rfl
      | ok result =>
          simp only [Except.map, ok_bind, eval_check]
          cases rejectIf (result.1 ≠ 1) LabError.unauthorized <;> rfl

section Rules

variable {γ δ : Type} {R : β × Image → γ → Prop} {f : α → Sql β} {x : Except LabError γ}

/-- Statements that do what a part of the atomic body does, and the rest of both. -/
theorem lockstep_bind {part : Sql α} {y : Except LabError δ} {leaves : δ → α × Image}
    (same : part.eval image = y.map leaves) {h : δ → Except LabError γ}
    (rest : ∀ d, Lockstep R ((f (leaves d).1).eval (leaves d).2) (h d)) :
    Lockstep R ((part >>= f).eval image) (y >>= h) := by
  rw [Body.eval_bind, same]
  cases y with
  | error e => exact .error e
  | ok d => exact rest d

theorem lockstep_select {read : Tables → α}
    (rest : Lockstep R ((f (read image.tables)).eval image) x) :
    Lockstep R ((select read >>= f).eval image) x := rest

theorem lockstep_execute {f : Nat → Sql β} {update : Tables → Nat × Tables}
    (rest : Lockstep R ((f (update image.tables).1).eval (onTables image (update image.tables).2))
      x) : Lockstep R ((execute (fun t => .ok (update t)) >>= f).eval image) x := rest

end Rules

theorem lockstep_register (request : MailboxRegistration P) (now : UInt64) :
    Lockstep (Leaves image)
      ((do
        validateRequestTime request.validUntil now
        rejectIf (request.manageKey.verify request.signingBytes request.signature = false)
          .unauthorized) >>= fun _ => (register P request now).eval image)
      (registerIn P image.tables request now) := by
  unfold register registerIn
  rw [bind_assoc]
  refine Lockstep.bind_same fun _ _ => Lockstep.bind_same fun _ _ => ?_
  refine lockstep_bind (eval_purgeExpiredIn now) fun swept => ?_
  refine lockstep_select <| lockstep_bind (eval_check _) fun _ => lockstep_select ?_
  simp only [tables_onTables]
  cases swept.2.mailboxes.find? (fun row => row.queueId = request.queueId.toList) with
  | none =>
      refine lockstep_bind (eval_check _) fun validUntil => lockstep_execute ?_
      refine lockstep_bind (eval_check _) fun _ => ?_
      refine lockstep_bind (eval_check _) fun createdAt => ?_
      refine lockstep_bind (eval_insert _) fun t => ?_
      exact .ok rfl
  | some row =>
      refine lockstep_bind (eval_check _) fun _ => ?_
      refine lockstep_bind (eval_check _) fun validUntil => lockstep_execute ?_
      exact .ok rfl

theorem lockstep_enqueue (request : SendRequest) (now : UInt64) :
    Lockstep (Leaves image)
      ((do
        rejectIf (request.packet = [] ∨ maxPacketBytes < request.packet.length) .invalidPayload
        validateMessageExpiry request.expiresAt now) >>= fun _ =>
          (enqueue P request now).eval image)
      (enqueueIn P image.tables request now) := by
  unfold enqueue enqueueIn
  rw [bind_assoc]
  refine Lockstep.bind_same fun _ _ => Lockstep.bind_same fun _ _ => ?_
  refine lockstep_bind (eval_purgeExpiredIn now) fun swept => ?_
  refine lockstep_bind (eval_mailboxKey _ _) fun sendKey => ?_
  refine lockstep_bind (eval_check _) fun _ => ?_
  refine lockstep_bind (eval_check _) fun time => lockstep_select ?_
  refine lockstep_bind (eval_check _) fun _ => lockstep_select ?_
  simp only [tables_onTables]
  cases swept.2.messages.find? (fun row => row.queueId = request.queueId.toList ∧
      row.messageId = request.messageId.toList) with
  | none =>
      refine lockstep_bind (eval_check _) fun expiresAt => ?_
      refine lockstep_bind (eval_insert _) fun t => ?_
      exact .ok rfl
  | some row =>
      simp only
      split
      · refine lockstep_bind (eval_check _) fun expiresAt => ?_
        refine lockstep_bind (eval_check _) fun _ => ?_
        exact .ok rfl
      · exact .error _

theorem lockstep_fetch (request : FetchRequest) (now : UInt64) :
    Lockstep (Leaves image)
      (validateRequestTime request.validUntil now >>= fun _ => (fetch P request now).eval image)
      (fetchIn P image.tables request now) := by
  unfold fetch fetchIn
  refine Lockstep.bind_same fun _ _ => ?_
  refine lockstep_bind (eval_purgeExpiredIn now) fun swept => ?_
  refine lockstep_bind (eval_mailboxKey _ _) fun receiveKey => ?_
  refine lockstep_bind (eval_check _) fun _ => ?_
  refine lockstep_bind (eval_recordNonce _ _ _ _) fun t => ?_
  refine lockstep_bind (eval_check _) fun time => lockstep_select ?_
  simp only [eval_check, tables_onTables]
  cases List.mapM (decodeEnvelope request.queueId) _ with
  | error e => exact .error e
  | ok envelopes => exact .ok rfl

theorem lockstep_acknowledge (request : AckRequest) (now : UInt64) :
    Lockstep (Leaves image)
      (validateRequestTime request.validUntil now >>= fun _ =>
        (acknowledge P request now).eval image)
      (acknowledgeIn P image.tables request now) := by
  unfold acknowledge acknowledgeIn
  refine Lockstep.bind_same fun _ _ => ?_
  refine lockstep_bind (eval_purgeExpiredIn now) fun swept => ?_
  refine lockstep_bind (eval_mailboxKey _ _) fun receiveKey => ?_
  refine lockstep_bind (eval_check _) fun _ => lockstep_select ?_
  simp only [tables_onTables]
  cases swept.2.messages.find? (fun row => row.queueId = request.queueId.toList ∧
      row.messageId = request.messageId.toList) with
  | none =>
      refine lockstep_select <| lockstep_bind (eval_check _) fun _ => ?_
      exact .ok rfl
  | some row =>
      refine lockstep_bind (eval_check _) fun _ => lockstep_execute ?_
      refine lockstep_bind (eval_check _) fun deleteAfter => ?_
      refine lockstep_bind (eval_insert _) fun t => ?_
      exact .ok rfl

theorem lockstep_deleteMailbox (request : DeleteMailboxRequest) (now : UInt64) :
    Lockstep (Leaves image)
      (validateRequestTime request.validUntil now >>= fun _ =>
        (deleteMailbox P request now).eval image)
      (deleteMailboxIn P image.tables request now) := by
  unfold deleteMailbox deleteMailboxIn
  refine Lockstep.bind_same fun _ _ => ?_
  refine lockstep_bind (eval_purgeExpiredIn now) fun swept => ?_
  refine lockstep_bind (eval_mailboxKey _ _) fun manageKey => ?_
  refine lockstep_bind (eval_check _) fun _ => ?_
  refine lockstep_bind (eval_recordNonce _ _ _ _) fun t => ?_
  refine lockstep_bind (eval_check _) fun retiredAt => ?_
  refine lockstep_execute <| lockstep_execute ?_
  exact .ok rfl

theorem eval_validateDatabaseIntegrity :
    (validateDatabaseIntegrity.within .storage).eval image =
      (SecureMessenger.validateDatabaseIntegrity image).map fun u => (u, image) := by
  rw [validateDatabaseIntegrity, SecureMessenger.validateDatabaseIntegrity, Look.within, Body.eval]
  by_cases dangling : image.foreignKeysOk = false
  · rw [if_pos dangling, rejectIf_of dangling]
    rfl
  · rw [if_neg dangling, rejectIf_of_not dangling, Look.within, Body.eval, ok_bind]
    by_cases corrupt : image.integrityOk = false
    · rw [if_pos corrupt, rejectIf_of corrupt]
      rfl
    · rw [if_neg corrupt, rejectIf_of_not corrupt]
      rfl

theorem eval_validateCurrentSchema (expected : SchemaManifest) :
    ((validateCurrentSchema expected).within .storage).eval image =
      (SecureMessenger.validateCurrentSchema image expected).map fun u => (u, image) := by
  rw [validateCurrentSchema, SecureMessenger.validateCurrentSchema, Look.within, Body.eval]
  by_cases differs : image.manifest ≠ expected
  · rw [if_pos differs, rejectIf_of differs]
    rfl
  · rw [if_neg differs, rejectIf_of_not differs]
    exact eval_validateDatabaseIntegrity

theorem eval_validateSchemaForOpen :
    (validateSchemaForOpen.within .storage).eval image =
      (SecureMessenger.validateSchemaForOpen image).map fun u => (u, image) := by
  rw [validateSchemaForOpen, SecureMessenger.validateSchemaForOpen, Look.within, Body.eval]
  by_cases unknown : ¬ (0 ≤ image.userVersion ∧ image.userVersion ≤ currentSchemaVersion)
  · rw [if_pos unknown, rejectIf_of unknown]
    rfl
  · rw [if_neg unknown, rejectIf_of_not unknown, Look.within, Body.eval, ok_bind]
    split
    · exact eval_validateDatabaseIntegrity
    · rfl

theorem eval_createTables (ddl : List TableShape) :
    (createTables ddl).eval image =
      .ok ((), { image with manifest := image.manifest.execute ddl }) := by
  induction ddl generalizing image with
  | nil => rfl
  | cons shape rest ih =>
      rw [createTables, alter, Body.eval_bind, Body.eval_change, ok_bind, ih]
      rfl

theorem eval_migrateSchema :
    migrateSchema.eval image =
      (SecureMessenger.migrateSchema image).map fun image => ((), image) := by
  rw [migrateSchema, SecureMessenger.migrateSchema, Body.eval_bind, eval_validateSchemaForOpen]
  cases SecureMessenger.validateSchemaForOpen image with
  | error e => rfl
  | ok u =>
      simp only [Except.map, ok_bind, Body.eval_bind, Body.eval_select]
      split
      · rfl
      split
      · simp only [Body.eval_bind, eval_createTables, alter, Body.eval_change, ok_bind,
          eval_validateCurrentSchema]
        cases SecureMessenger.validateCurrentSchema _ _ <;> rfl
      split
      · simp only [Body.eval_bind, execute, alter, Body.eval_change, Except.map, ok_bind,
          eval_validateCurrentSchema]
        cases SecureMessenger.validateCurrentSchema _ _ <;> rfl
      · rfl

end Sql

/-- What the relay of one handle does to the file, as a whole. -/
def Relay.serve (P : Primitives) (image : Image) (call : Call P) : Reply × Image :=
  (Relay.step P ⟨image, []⟩ call).map id Relay.image

/-- The call in the machine of one handle; the two counts have none. -/
def HandleCall.call? : HandleCall P → Option (Call P)
  | openAt now => some (.reopen now)
  | register request now => some (.register request now)
  | enqueue request now => some (.enqueue request now)
  | fetch request now => some (.fetch request now)
  | acknowledge request now => some (.acknowledge request now)
  | deleteMailbox request now => some (.deleteMailbox request now)
  | purgeExpired now => some (.purgeExpired now)
  | messageCount | tombstoneCount => none

/-- A transaction whose statements follow an atomic body. -/
theorem serve_transaction {α : Type} {image : Image} {admission : Except LabError Unit}
    {answer : α → Answer} {body : Sql α} {x : Except LabError (Committed α)}
    (follows : Lockstep (Sql.Leaves image) (admission >>= fun _ => body.eval image) x) :
    (transaction admission answer body).serve image =
      ((⟨image, []⟩ : Relay).transact x).map (·.map answer) Relay.image := by
  rw [transaction, Operation.serve_transact]
  have whole : (admission >>= fun _ =>
      (body >>= fun value => pure (answer value) : Sql Answer).eval image) =
      (admission >>= fun _ => body.eval image).map
        fun result => (answer result.1, result.2) := by
    cases admission with
    | error e => rfl
    | ok u =>
        rw [ok_bind, ok_bind, Body.eval_bind]
        cases body.eval image <;> rfl
  rw [whole]
  generalize (admission >>= fun _ => body.eval image) = y at follows ⊢
  cases follows with
  | error e => rfl
  | ok leaves =>
      cases leaves
      rfl

theorem serve_openAt (image : Image) (now : UInt64) :
    (program P (.openAt now)).serve image = Relay.serve P image (.reopen now) := by
  rw [program, Operation.serve_transact, Relay.serve, Relay.step, Relay.reopen, ok_bind,
    Body.eval_bind, Sql.eval_migrateSchema]
  simp only [openAt, initializeRelay]
  cases valid : validateSchemaForOpen image with
  | error e =>
      rw [migrateSchema, valid]
      rfl
  | ok u =>
      simp only [ok_bind]
      cases migrateSchema image with
      | error e => rfl
      | ok migrated =>
          simp only [Except.map, ok_bind, Body.eval_bind, Sql.eval_purgeExpiredIn]
          cases purgeExpiredIn migrated.tables now <;> rfl

/-- The statements of a call, executed without interruption, do what the call does. -/
theorem serve_program {request : HandleCall P} {call : Call P} (named : request.call? = some call)
    (image : Image) : (program P request).serve image = Relay.serve P image call := by
  cases request with
  | openAt now =>
      cases named
      exact serve_openAt image now
  | register request now =>
      cases named
      exact serve_transaction (Sql.lockstep_register request now)
  | enqueue request now =>
      cases named
      exact serve_transaction (Sql.lockstep_enqueue request now)
  | fetch request now =>
      cases named
      exact serve_transaction (Sql.lockstep_fetch request now)
  | acknowledge request now =>
      cases named
      exact serve_transaction (Sql.lockstep_acknowledge request now)
  | deleteMailbox request now =>
      cases named
      exact serve_transaction (Sql.lockstep_deleteMailbox request now)
  | purgeExpired now =>
      cases named
      rw [program, transaction, Operation.serve_transact, ok_bind, Body.eval_bind,
        Sql.eval_purgeExpiredIn, Relay.serve, Relay.step, Relay.purgeExpired]
      cases purgeExpiredIn image.tables now <;> rfl
  | messageCount | tombstoneCount => cases named

end SecureMessenger
