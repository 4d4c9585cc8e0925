import SecureMessenger.Library.Transaction
import SecureMessenger.Relay.Commit

/-!
# Opening a database image

An image is accepted if its keys, checks and foreign keys hold and its version and
manifest belong together. The source looks at version and manifest three times, on
different images: before the file is opened normally, inside the transaction before
the migration, and after it. `Image.Openable` is the one condition behind all
three. An accepted image is migrated and swept; the result is at the current schema
and is accepted again.

`openStatements` is the same open as a list of statements on the file. A migration may
fail after it has dropped the messages; every change is made inside the transaction, so
a file that is not opened is left as it was.
-/

namespace SecureMessenger

open Fallible

namespace Image

variable {image : Image}

theorem kind_eq_empty : image.kind = .empty ↔ image.manifest = .empty := by
  rw [kind, classifySchema]
  split
  · next same => exact iff_of_true rfl same
  · next differs =>
    refine iff_of_false ?_ differs
    split
    · simp
    · split <;> simp

theorem kind_eq_legacy :
    image.kind = .legacy ↔ image.manifest = referenceManifest legacySchemaDdl := by
  have distinct : referenceManifest legacySchemaDdl ≠ .empty := by decide
  rw [kind, classifySchema]
  split
  · next same => exact iff_of_false (by simp) fun legacy => distinct (legacy.symm.trans same)
  · split
    · next same => exact iff_of_true rfl same
    · next differs =>
      refine iff_of_false ?_ differs
      split <;> simp

theorem kind_eq_current :
    image.kind = .current ↔ image.manifest = referenceManifest currentSchemaDdl := by
  have nonempty : referenceManifest currentSchemaDdl ≠ .empty := by decide
  have distinct : referenceManifest currentSchemaDdl ≠ referenceManifest legacySchemaDdl := by
    decide
  rw [kind, classifySchema]
  split
  · next same => exact iff_of_false (by simp) fun current => nonempty (current.symm.trans same)
  · split
    · next same => exact iff_of_false (by simp) fun current => distinct (current.symm.trans same)
    · split
      · next same => exact iff_of_true rfl same
      · next differs => exact iff_of_false (by simp) differs

/-- The rows satisfy the keys, checks and foreign keys of the schema. -/
structure Intact (image : Image) : Prop where
  messageParents : ∀ row ∈ image.tables.messages.contents,
    image.tables.hasMailbox row.queueId = true
  tombstoneParents : ∀ row ∈ image.tables.tombstones.contents,
    image.tables.hasMailbox row.queueId = true
  requestNonceParents : ∀ row ∈ image.tables.requestNonces.contents,
    image.tables.hasMailbox row.queueId = true
  mailboxChecks : ∀ row ∈ image.tables.mailboxes.contents, row.checks = true
  messageChecks : ∀ row ∈ image.tables.messages.contents, image.messageChecks row = true
  tombstoneChecks : ∀ row ∈ image.tables.tombstones.contents, row.checks = true
  requestNonceChecks : ∀ row ∈ image.tables.requestNonces.contents, row.checks = true
  registrationNonceChecks : ∀ row ∈ image.tables.registrationNonces.contents, row.checks = true
  retiredQueueChecks : ∀ row ∈ image.tables.retiredQueues.contents, row.checks = true
  mailboxKeys : (image.tables.mailboxes.contents.map MailboxRow.key).Nodup
  messageKeys : (image.tables.messages.contents.map MessageRow.key).Nodup
  tombstoneKeys : (image.tables.tombstones.contents.map TombstoneRow.key).Nodup
  requestNonceKeys : (image.tables.requestNonces.contents.map RequestNonceRow.key).Nodup
  registrationNonceKeys :
    (image.tables.registrationNonces.contents.map RegistrationNonceRow.key).Nodup
  retiredQueueKeys : (image.tables.retiredQueues.contents.map RetiredQueueRow.key).Nodup

theorem intact_iff :
    image.foreignKeysOk = true ∧ image.integrityOk = true ↔ image.Intact := by
  simp only [foreignKeysOk, integrityOk, Bool.and_eq_true, List.all_eq_true, decide_eq_true_eq,
    and_assoc]
  constructor
  · rintro ⟨messageParents, tombstoneParents, requestNonceParents, mailboxChecks, messageChecks,
      tombstoneChecks, requestNonceChecks, registrationNonceChecks, retiredQueueChecks,
      mailboxKeys, messageKeys, tombstoneKeys, requestNonceKeys, registrationNonceKeys,
      retiredQueueKeys⟩
    exact { messageParents, tombstoneParents, requestNonceParents, mailboxChecks, messageChecks,
            tombstoneChecks, requestNonceChecks, registrationNonceChecks, retiredQueueChecks,
            mailboxKeys, messageKeys, tombstoneKeys, requestNonceKeys, registrationNonceKeys,
            retiredQueueKeys }
  · intro intact
    exact ⟨intact.messageParents, intact.tombstoneParents, intact.requestNonceParents,
      intact.mailboxChecks, intact.messageChecks, intact.tombstoneChecks,
      intact.requestNonceChecks, intact.registrationNonceChecks, intact.retiredQueueChecks,
      intact.mailboxKeys, intact.messageKeys, intact.tombstoneKeys, intact.requestNonceKeys,
      intact.registrationNonceKeys, intact.retiredQueueKeys⟩

/-- The images that the relay opens. -/
structure Openable (image : Image) : Prop extends Intact image where
  schema : (image.userVersion = 2 ∧ image.manifest = referenceManifest currentSchemaDdl) ∨
    ((image.userVersion = 0 ∨ image.userVersion = 1) ∧
      (image.manifest = .empty ∨ image.manifest = referenceManifest legacySchemaDdl))

theorem validateDatabaseIntegrity_eq_ok {u : Unit} :
    validateDatabaseIntegrity image = .ok u ↔ image.Intact := by
  simp only [validateDatabaseIntegrity, bind_eq_ok, rejectIf_eq_ok, Bool.not_eq_false,
    ← intact_iff, exists_const]

theorem validateSchemaForOpen_eq_ok {u : Unit} :
    validateSchemaForOpen image = .ok u ↔ image.Openable := by
  have schema : ((image.userVersion = currentSchemaVersion ∧ image.kind = .current) ∨
      ((image.userVersion = 0 ∨ image.userVersion = 1) ∧
        (image.kind = .empty ∨ image.kind = .legacy))) ↔
      (image.userVersion = 2 ∧ image.manifest = referenceManifest currentSchemaDdl) ∨
        ((image.userVersion = 0 ∨ image.userVersion = 1) ∧
          (image.manifest = .empty ∨ image.manifest = referenceManifest legacySchemaDdl)) := by
    rw [kind_eq_current, kind_eq_empty, kind_eq_legacy, currentSchemaVersion]
  rw [validateSchemaForOpen, bind_eq_ok]
  constructor
  · rintro ⟨_, _, valid⟩
    split at valid
    · next known => exact ⟨validateDatabaseIntegrity_eq_ok.mp valid, schema.mp known⟩
    · cases valid
  · rintro ⟨intact, known⟩
    refine ⟨(), rejectIf_of_not ?_, ?_⟩
    · rw [currentSchemaVersion]
      omega
    · rw [if_pos (schema.mpr known)]
      exact validateDatabaseIntegrity_eq_ok.mpr intact

/-- The image after a successful migration: at the current schema, and without the
messages of a legacy image. -/
def migrated (image : Image) : Image where
  userVersion := currentSchemaVersion
  manifest := referenceManifest currentSchemaDdl
  tables :=
    if image.manifest = referenceManifest legacySchemaDdl then
      { image.tables with messages := .empty }
    else image.tables

/-- The image with the expired rows swept. -/
def swept (image : Image) (now : Int) : Image :=
  { image with tables := image.tables.swept now }

/-- Fewer child rows, and the same mailboxes and retired queues. -/
structure Thins (image image' : Image) : Prop where
  mailboxes : image'.tables.mailboxes = image.tables.mailboxes
  retiredQueues : image'.tables.retiredQueues = image.tables.retiredQueues
  messages : image'.tables.messages.contents.Sublist image.tables.messages.contents
  tombstones : image'.tables.tombstones.contents.Sublist image.tables.tombstones.contents
  requestNonces :
    image'.tables.requestNonces.contents.Sublist image.tables.requestNonces.contents
  registrationNonces :
    image'.tables.registrationNonces.contents.Sublist image.tables.registrationNonces.contents

theorem thins_swept (image : Image) (now : Int) : Thins image (image.swept now) where
  mailboxes := rfl
  retiredQueues := rfl
  messages := Table.sublist_keep _ _
  tombstones := Table.sublist_keep _ _
  requestNonces := Table.sublist_keep _ _
  registrationNonces := Table.sublist_keep _ _

theorem thins_migrated (image : Image) : Thins image image.migrated := by
  constructor <;> rw [migrated] <;> dsimp only <;> split
  case messages.isTrue => exact List.nil_sublist _
  all_goals rfl

/-- Fewer rows violate no constraint that held before. -/
theorem Thins.intact {image' : Image} (thins : Thins image image') (intact : image.Intact)
    (checks : ∀ row ∈ image'.tables.messages.contents, image'.messageChecks row = true) :
    image'.Intact where
  messageParents row member := by
    rw [Tables.hasMailbox, thins.mailboxes]
    exact intact.messageParents row (thins.messages.subset member)
  tombstoneParents row member := by
    rw [Tables.hasMailbox, thins.mailboxes]
    exact intact.tombstoneParents row (thins.tombstones.subset member)
  requestNonceParents row member := by
    rw [Tables.hasMailbox, thins.mailboxes]
    exact intact.requestNonceParents row (thins.requestNonces.subset member)
  mailboxChecks := thins.mailboxes ▸ intact.mailboxChecks
  messageChecks := checks
  tombstoneChecks row member := intact.tombstoneChecks row (thins.tombstones.subset member)
  requestNonceChecks row member :=
    intact.requestNonceChecks row (thins.requestNonces.subset member)
  registrationNonceChecks row member :=
    intact.registrationNonceChecks row (thins.registrationNonces.subset member)
  retiredQueueChecks := thins.retiredQueues ▸ intact.retiredQueueChecks
  mailboxKeys := thins.mailboxes ▸ intact.mailboxKeys
  messageKeys := intact.messageKeys.sublist (thins.messages.map _)
  tombstoneKeys := intact.tombstoneKeys.sublist (thins.tombstones.map _)
  requestNonceKeys := intact.requestNonceKeys.sublist (thins.requestNonces.map _)
  registrationNonceKeys := intact.registrationNonceKeys.sublist (thins.registrationNonces.map _)
  retiredQueueKeys := thins.retiredQueues ▸ intact.retiredQueueKeys

/-- Outside the legacy schema a message must carry a signature. -/
theorem messageChecks_of_not_legacy (row : MessageRow)
    (modern : image.manifest ≠ referenceManifest legacySchemaDdl) :
    image.messageChecks row = row.checks := by
  rw [Image.messageChecks, if_neg fun legacy => modern (kind_eq_legacy.mp legacy)]

theorem current_ne_legacy :
    referenceManifest currentSchemaDdl ≠ referenceManifest legacySchemaDdl := by decide

theorem Intact.migrated (intact : image.Intact) : image.migrated.Intact := by
  refine (thins_migrated image).intact intact fun row member => ?_
  rw [messageChecks_of_not_legacy row current_ne_legacy]
  by_cases legacy : image.manifest = referenceManifest legacySchemaDdl
  · rw [Image.migrated, if_pos legacy] at member
    cases member
  · rw [Image.migrated, if_neg legacy] at member
    rw [← messageChecks_of_not_legacy row legacy]
    exact intact.messageChecks row member

theorem Intact.swept (intact : image.Intact) (now : Int) : (image.swept now).Intact :=
  (thins_swept image now).intact intact fun row member =>
    intact.messageChecks row ((thins_swept image now).messages.subset member)

theorem Openable.swept (openable : image.Openable) (now : Int) : (image.swept now).Openable :=
  ⟨openable.toIntact.swept now, openable.schema⟩

theorem Openable.migrated (openable : image.Openable) : image.migrated.Openable :=
  ⟨openable.toIntact.migrated, .inl ⟨rfl, rfl⟩⟩

/-- An image at the current schema is left as it is. -/
theorem migrated_eq_self (version : image.userVersion = currentSchemaVersion)
    (manifest : image.manifest = referenceManifest currentSchemaDdl) : image.migrated = image := by
  rw [Image.migrated, manifest, if_neg current_ne_legacy, ← version, ← manifest]

/-- The migration of an accepted image succeeds. -/
theorem migrateSchema_eq (openable : image.Openable) :
    migrateSchema image = .ok image.migrated := by
  have valid : validateSchemaForOpen image = .ok () := validateSchemaForOpen_eq_ok.mpr openable
  have validated : validateCurrentSchema image.migrated (referenceManifest currentSchemaDdl) =
      .ok () := by
    refine bind_eq_ok.mpr ⟨(), rejectIf_of_not (not_not_intro rfl), ?_⟩
    exact validateDatabaseIntegrity_eq_ok.mpr openable.toIntact.migrated
  have outdated : image.userVersion = 0 ∨ image.userVersion = 1 →
      ¬ (image.userVersion = currentSchemaVersion ∧ image.kind = .current) := by
    rw [currentSchemaVersion]
    omega
  rw [migrateSchema, valid, ok_bind]
  obtain ⟨version, manifest⟩ | ⟨version, manifest | manifest⟩ := openable.schema
  · rw [if_pos ⟨version, kind_eq_current.mpr manifest⟩, migrated_eq_self version manifest]
  · have created : { image with
        manifest := image.manifest.execute currentSchemaDdl
        userVersion := currentSchemaVersion } = image.migrated := by
      rw [Image.migrated, manifest, if_neg (by decide)]
      rfl
    rw [if_neg (outdated version), if_pos ⟨version, kind_eq_empty.mpr manifest⟩]
    simp only [created, validated, ok_bind]
  · have replaced : { image with
        manifest := (image.manifest.dropTable .messages).createTable currentMessagesDdl
        tables := { image.tables with messages := .empty }
        userVersion := currentSchemaVersion } = image.migrated := by
      rw [Image.migrated, if_pos manifest, manifest]
      rfl
    have nonempty : ¬ ((image.userVersion = 0 ∨ image.userVersion = 1) ∧ image.kind = .empty) := by
      rw [kind_eq_legacy.mpr manifest]
      simp
    rw [if_neg (outdated version), if_neg nonempty, if_pos ⟨version, kind_eq_legacy.mpr manifest⟩]
    simp only [replaced, validated, ok_bind]

end Image

/-- An accepted image is migrated; then only the sweep can fail. -/
theorem openAt_of_openable {image : Image} (openable : image.Openable) (now : UInt64) :
    openAt (some image) now = (purgeExpiredIn image.migrated.tables now).map
      (fun swept => ⟨{ image.migrated with tables := swept.2 }, []⟩) := by
  have valid : validateSchemaForOpen image = .ok () :=
    Image.validateSchemaForOpen_eq_ok.mpr openable
  simp only [openAt, initializeRelay, valid, Image.migrateSchema_eq openable, ok_bind]
  cases purgeExpiredIn image.migrated.tables now <;> rfl

/-- Opening succeeds on exactly the accepted images, at a time that the database can
hold. The image is migrated and swept. -/
theorem openAt_eq_ok {image : Image} {now : UInt64} {r : Relay} :
    openAt (some image) now = .ok r ↔
      image.Openable ∧ now.toNat < 2 ^ 63 ∧ r = ⟨image.migrated.swept now.toNat, []⟩ := by
  constructor
  · intro opened
    obtain ⟨_, valid, _⟩ := bind_eq_ok.mp opened
    have openable := Image.validateSchemaForOpen_eq_ok.mp valid
    rw [openAt_of_openable openable] at opened
    cases purged : purgeExpiredIn image.migrated.tables now with
    | error e =>
        rw [purged] at opened
        cases opened
    | ok swept =>
        obtain ⟨fits, rfl⟩ := Tables.purgeExpiredIn_eq_ok.mp purged
        rw [purged] at opened
        exact ⟨openable, fits, (Except.ok.inj opened).symm⟩
  · rintro ⟨openable, fits, rfl⟩
    rw [openAt_of_openable openable, Tables.purgeExpiredIn_of_fits _ fits]
    rfl

/-- A later sweep subsumes an earlier one. -/
theorem Tables.swept_swept (t : Tables) {early late : Int} (le : early ≤ late) :
    (t.swept early).swept late = t.swept late := by
  have later : ∀ deadline : Int, decide (late < deadline) = true →
      decide (early < deadline) = true := by
    intro deadline
    simp only [decide_eq_true_eq]
    omega
  simp only [Tables.swept, Table.keep_keep fun row => later _]

/-- Opening the result again at the same time finds nothing to do. -/
theorem openAt_again {image : Image} {now : UInt64} {r : Relay}
    (opened : openAt (some image) now = .ok r) : openAt (some r.image) now = .ok r := by
  obtain ⟨openable, fits, rfl⟩ := openAt_eq_ok.mp opened
  have settled : (image.migrated.swept now.toNat).migrated = image.migrated.swept now.toNat :=
    Image.migrated_eq_self rfl rfl
  refine openAt_eq_ok.mpr ⟨openable.migrated.swept _, fits, ?_⟩
  rw [settled, Image.swept, Image.swept, Tables.swept_swept _ (Int.le_refl _)]

section Statements

open Transaction

/-- The statements of the migration, chosen by the version and the kind of the image. -/
def migrationStatements (image : Image) : List (Action Image LabError) :=
  if image.userVersion = currentSchemaVersion ∧ image.kind = .current then []
  else if (image.userVersion = 0 ∨ image.userVersion = 1) ∧ image.kind = .empty then
    [.change fun image => .ok { image with manifest := image.manifest.execute currentSchemaDdl },
      .change fun image => .ok { image with userVersion := currentSchemaVersion },
      .test fun image => validateCurrentSchema image (referenceManifest currentSchemaDdl)]
  else if (image.userVersion = 0 ∨ image.userVersion = 1) ∧ image.kind = .legacy then
    [.change fun image => .ok { image with
        tables := { image.tables with messages := image.tables.messages.keep fun _ => false } },
      .change fun image => .ok { image with
        manifest := image.manifest.dropTable .messages
        tables := { image.tables with messages := .empty } },
      .change fun image => .ok { image with
        manifest := image.manifest.createTable currentMessagesDdl },
      .change fun image => .ok { image with userVersion := currentSchemaVersion },
      .test fun image => validateCurrentSchema image (referenceManifest currentSchemaDdl)]
  else [.test fun _ => .error .storage]

/-- The statements of `open_at` on a file: the preflight and the validation, and in one
transaction the migration and the sweep. -/
def openStatements (image : Image) (now : UInt64) :
    List (Transaction.Statement Image LabError) :=
  script [.test validateSchemaForOpen, .test validateSchemaForOpen]
    (.test validateSchemaForOpen :: migrationStatements image ++
      [.change fun image => do
        let (_, tables) ← purgeExpiredIn image.tables now
        .ok { image with tables }])

/-- The file after an attempt to open it. -/
def Image.opened (image : Image) (now : UInt64) : Image :=
  (run ⟨image, none⟩ (openStatements image now)).2.committed

theorem applyAll_migrationStatements (image : Image) :
    applyAll image (.test validateSchemaForOpen :: migrationStatements image) =
      migrateSchema image := by
  rw [applyAll_cons, migrateSchema]
  cases valid : validateSchemaForOpen image with
  | error e => simp only [Action.apply, valid, error_bind]
  | ok u =>
      simp only [Action.apply, valid, ok_bind, migrationStatements]
      split
      · rfl
      · split
        · rw [applyAll_change, applyAll_change, applyAll_test]
        · split
          · rw [applyAll_change, applyAll_change, applyAll_change,
              applyAll_change, applyAll_test]
          · rfl

/-- The statements on the file and the opened relay agree. -/
theorem opened_eq (image : Image) (now : UInt64) :
    image.opened now = ((openAt (some image) now).map Relay.image).toOption.getD image := by
  have only : ∀ action ∈ [Action.test validateSchemaForOpen, .test validateSchemaForOpen],
      action.reads = true := by
    simp [Action.reads]
  rw [Image.opened, openStatements, (run_script only image _).2]
  congr 2
  rw [List.cons_append, List.cons_append, List.nil_append, applyAll_cons]
  cases valid : validateSchemaForOpen image with
  | error e => simp only [Action.apply, openAt, valid, error_bind, Except.map]
  | ok u =>
      simp only [Action.apply, openAt, initializeRelay, valid, ok_bind, applyAll_cons image]
      rw [applyAll_append, applyAll_migrationStatements]
      cases migrateSchema image with
      | error e => rfl
      | ok migrated =>
          rw [ok_bind, ok_bind, applyAll_cons, Action.apply]
          cases purgeExpiredIn migrated.tables now <;> rfl

end Statements

/-- What opening an image does. -/
structure Opens (image : Image) (now : UInt64) (r : Relay) : Prop where
  version : r.image.userVersion = 2
  manifest : r.image.manifest = referenceManifest currentSchemaDdl
  mailboxes : r.image.tables.mailboxes = image.tables.mailboxes
  retiredQueues : r.image.tables.retiredQueues = image.tables.retiredQueues
  tombstones : r.image.tables.tombstones.contents =
    image.tables.tombstones.contents.filter (fun row => (now.toNat : Int) < row.deleteAfter)
  requestNonces : r.image.tables.requestNonces.contents =
    image.tables.requestNonces.contents.filter (fun row => (now.toNat : Int) < row.deleteAfter)
  registrationNonces : r.image.tables.registrationNonces.contents =
    image.tables.registrationNonces.contents.filter
      (fun row => (now.toNat : Int) < row.deleteAfter)
  messages : r.image.tables.messages.contents =
    if image.manifest = referenceManifest legacySchemaDdl then []
    else image.tables.messages.contents.filter (fun row => (now.toNat : Int) < row.expiresAt)
  committed : image.opened now = r.image
  again : openAt (some r.image) now = .ok r

theorem opens_of_ok {image : Image} {now : UInt64} {r : Relay}
    (opened : openAt (some image) now = .ok r) : Opens image now r := by
  have again := openAt_again opened
  have committed : image.opened now = r.image := by
    rw [opened_eq, opened]
    rfl
  obtain ⟨_, _, rfl⟩ := openAt_eq_ok.mp opened
  constructor
  case version | manifest => rfl
  case committed => exact committed
  case again => exact again
  all_goals
    simp only [Image.swept, Tables.swept, Image.migrated, Table.contents_keep]
    split
  case messages.isTrue => rfl
  all_goals rfl

end SecureMessenger
