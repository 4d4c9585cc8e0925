import SecureMessenger.Persistence.Chain

/-!
# The limits of the state store

The limits on the plaintext, the ciphertext, the wrapped key and the generation are
written several times: in sealing and opening, in `create` and `commit`, in the reader
of a row and in the constraints of the table. They agree. With a cipher that adds a
tag of 16 bytes, a state is accepted up to `maxPlaintextBytes` and no further, a
generation can be replaced up to the last signed word but one, and whatever is accepted
passes every check of a later open and comes back as it was.

A poisoned handle accepts nothing, even if the file still holds its row.

The last part is about the machine arithmetic. Conversions between lengths and words are
checked in the source, and the one subtraction is not; `openStopping` and
`readRowStopping` have a separate outcome for a result out of range, which no input
brings about.
-/

namespace SecureMessenger

open Fallible Envelope

variable {A : Aead} {P : Primitives}

/-- The ciphertext of an admissible plaintext is 16 bytes longer. -/
def Aead.Tagged (A : Aead) : Prop :=
  ∀ key nonce bound plaintext, plaintext.length ≤ maxPlaintextBytes →
    ∃ ciphertext, A.encrypt key nonce bound plaintext = some ciphertext ∧
      ciphertext.length = plaintext.length + 16

/-- A wrapped key unwraps to the key that was wrapped. -/
def StateKeyProtector.Unwraps (protector : StateKeyProtector) : Prop :=
  ∀ dek wrapped, protector.wrapDek dek = .ok wrapped → protector.unwrapDek wrapped = .ok dek

/-- The file passes the checks of the store and holds the row that the handle caches. -/
structure ClientStateStore.Matches (store : ClientStateStore) (disk : StateDb) : Prop where
  valid : disk.validateSchema = .ok ()
  rows : disk.rows = [store.cached.row]

section Sealing

variable {binding : ProfileBinding} {generation : UInt64} {wrappedDek : Bytes} {dek : Dek}
variable {nonce : StateNonce} {plaintext : Bytes}

/-- Sealing has no limits but those of the header. -/
theorem sealEnvelope_of_header (tagged : A.Tagged)
    (header : validateHeader generation wrappedDek plaintext.length = .ok ()) :
    ∃ ciphertext, sealEnvelope A P binding generation wrappedDek dek nonce plaintext =
      .ok ciphertext ∧ validateCiphertextLen ciphertext.length = .ok () := by
  have admissible := (validateHeader_eq_ok.mp header).2.2.2.2
  obtain ⟨ciphertext, encrypted, length⟩ := tagged dek nonce
    (Framing.frames 4 (aadParts P binding generation wrappedDek)) plaintext admissible
  have room : ciphertext.length ≤ maxCiphertextBytes := by
    have : maxPlaintextBytes + 16 = maxCiphertextBytes := by decide
    omega
  refine ⟨ciphertext, sealEnvelope_eq_ok.mpr ⟨header, encrypted, room⟩, ?_⟩
  exact rejectIf_of_not (by omega)

end Sealing

namespace StateCache

variable {c : StateCache}

theorem Sealed.header (sealed : c.Sealed A P) :
    validateHeader c.generation c.wrappedDek c.state.length = .ok () :=
  (sealEnvelope_eq_ok.mp sealed.sealed).1

/-- Whatever was sealed meets the constraints of the table. -/
theorem Sealed.checks (sealed : c.Sealed A P) : c.row.checks = true := by
  obtain ⟨positive, _, present, bounded, _⟩ := validateHeader_eq_ok.mp sealed.header
  obtain ⟨_, _, short⟩ := sealEnvelope_eq_ok.mp sealed.sealed
  have number : c.generation.toNat ≠ 0 := fun zero => positive (UInt64.toNat_inj.mp zero)
  have nonempty := List.length_pos_iff.mpr present
  have tagged := sealed.tagged
  simp only [maxWrappedDekBytes] at bounded
  simp only [maxCiphertextBytes] at short
  simp only [StateRow.checks, row, FixedBytes.length_toList, decide_eq_true_eq]
  refine ⟨rfl, trivial, by omega, rfl, rfl, rfl, trivial, nonempty, bounded, trivial, tagged, ?_⟩
  omega

/-- A row that meets the constraints passes the reader. -/
theorem readRow_of_checks {db : StateDb} (rows : db.rows = [c.row])
    (checks : c.row.checks = true) :
    readRow db c.binding = .ok ⟨c.generation, c.wrappedDek, c.nonce, c.ciphertext⟩ := by
  simp only [StateRow.checks, decide_eq_true_eq] at checks
  obtain ⟨_, profile, generation, version, schema, suite, keyRef, present, bounded, nonce, tagged,
    short⟩ := checks
  have found : db.rows.find? (fun row => row.slot = slot) = some c.row := by
    rw [rows]
    rfl
  have fits : ¬ (c.row.profileId.length ≠ 16 ∨ c.row.generation < 1 ∨
      c.row.envelopeVersion ≠ envelopeVersion ∨ c.row.stateSchemaVersion ≠ stateSchemaVersion ∨
      c.row.cryptoSuite ≠ cryptoSuite ∨ c.row.keyRef.length ≠ 16 ∨ c.row.wrappedDek.length < 1 ∨
      c.row.wrappedDek.length > wrappedDekMaxBytes ∨ c.row.nonce.length ≠ nonceBytes ∨
      c.row.ciphertext.length < 16 ∨ c.row.ciphertext.length > maxCiphertextBytes) := by
    have limit : maxCiphertextBytes = 8388608 := rfl
    have version' : envelopeVersion = 1 := rfl
    have schema' : stateSchemaVersion = 1 := rfl
    have suite' : cryptoSuite = 1 := rfl
    have wrapped : wrappedDekMaxBytes = 8192 := rfl
    have drawn : nonceBytes = 24 := rfl
    omega
  have own : ¬ (c.row.profileId ≠ c.binding.profileId.toList ∨
      c.row.keyRef ≠ c.binding.keyRef.toList) := by
    simp [row]
  have loaded : FixedBytes.fromSlice 24 c.row.nonce = some c.nonce :=
    FixedBytes.fromSlice_toList c.nonce
  have converted : toU64 c.row.generation = some c.generation := toU64_toNat c.generation
  unfold readRow
  rw [found]
  refine bind_eq_ok.mpr ⟨(), rejectIf_of_not fits, bind_eq_ok.mpr ⟨(), rejectIf_of_not own, ?_⟩⟩
  rw [loaded, converted]
  rfl

theorem rowsValid_of_checks (checks : c.row.checks = true) : StateDb.RowsValid [c.row] where
  checks := by simpa using checks
  distinct := List.nodup_singleton _

/-- The only row of a file that passes the checks of the store. -/
theorem checks_of_valid {db : StateDb} (valid : db.validateSchema = .ok ())
    (rows : db.rows = [c.row]) : c.row.checks = true := by
  apply (StateDb.validateSchema_eq_ok.mp valid).2.checks
  rw [rows]
  exact List.mem_singleton_self _

/-- What a platform needs to know to open a sealed row. -/
theorem openIn_of_row {db : StateDb} {protector : StateKeyProtector} (rows : db.rows = [c.row])
    (valid : db.validateSchema = .ok ()) (expected : protector.expectedBinding = .ok c.binding)
    (unwrapped : protector.unwrapDek c.wrappedDek = .ok c.dek) (opens : c.Opens A P) :
    openIn A P db protector = .ok c := by
  simp only [openIn, bind_eq_ok]
  exact ⟨c.binding, expected, (), valid, _, readRow_of_checks rows (checks_of_valid valid rows),
    c.dek, unwrapped, c.state, opens, rfl⟩

end StateCache

section Commit

variable {cached candidate : StateCache} {state : Bytes} {nonce : StateNonce} {disk : StateDb}

/-- A snapshot can be replaced up to the exact limits. -/
theorem prepareCommit_iff (tagged : A.Tagged) (checks : cached.row.checks = true) :
    (∃ candidate, prepareCommit A P cached state (some nonce) = .ok candidate) ↔
      state.length ≤ maxPlaintextBytes ∧ cached.generation.toNat < 2 ^ 63 - 1 := by
  constructor
  · rintro ⟨candidate, prepared⟩
    obtain ⟨sealed, succeeds, rfl, _⟩ := prepareCommit_spec prepared
    obtain ⟨_, signed, _, _, short⟩ := validateHeader_eq_ok.mp sealed.header
    rw [succeeds.generation] at signed
    exact ⟨short, by omega⟩
  · rintro ⟨short, below⟩
    simp only [StateRow.checks, decide_eq_true_eq] at checks
    obtain ⟨_, _, _, _, _, _, _, present, bounded, _⟩ := checks
    have next : (cached.generation + 1).toNat = cached.generation.toNat + 1 := by
      rw [UInt64.toNat_add, UInt64.toNat_one]
      exact Nat.mod_eq_of_lt (by omega)
    have header : validateHeader (cached.generation + 1) cached.wrappedDek state.length =
        .ok () := by
      refine validateHeader_eq_ok.mpr ⟨?_, by omega, List.length_pos_iff.mp present, bounded, short⟩
      intro zero
      rw [zero] at next
      cases next
    obtain ⟨ciphertext, sealed, length⟩ : ∃ ciphertext,
        sealEnvelope A P cached.binding (cached.generation + 1) cached.wrappedDek cached.dek nonce
          state = .ok ciphertext ∧ validateCiphertextLen ciphertext.length = .ok () :=
      sealEnvelope_of_header tagged header
    refine ⟨{ cached with nonce, ciphertext, generation := cached.generation + 1, state }, ?_⟩
    simp only [prepareCommit, bind_eq_ok]
    exact ⟨(), rejectIf_of_not (by omega), nonce, rfl, ciphertext, sealed, (), length, rfl⟩

/-- On a file with the cached row the transaction of a commit goes through. -/
theorem commitIn_of_rows (valid : disk.validateSchema = .ok ()) (rows : disk.rows = [cached.row])
    (succeeds : candidate.Succeeds cached) (sealed : candidate.Sealed A P) :
    commitIn disk cached candidate = .ok { disk with rows := [candidate.row] } := by
  obtain ⟨_, signed, _⟩ := validateHeader_eq_ok.mp sealed.header
  have before : cached.generation.toNat < 2 ^ 63 := by
    have := succeeds.generation
    omega
  refine bind_eq_ok.mpr ⟨_, toI64_eq_ok.mpr ⟨before, rfl⟩,
    bind_eq_ok.mpr ⟨_, toI64_eq_ok.mpr ⟨signed, rfl⟩, bind_eq_ok.mpr ⟨(), valid, ?_⟩⟩⟩
  simp only [selected_iff]
  refine bind_eq_ok.mpr ⟨(1, { disk with rows := [candidate.row] }), ?_, rfl⟩
  simp only [StateDb.updateRows, rows, List.any_cons, List.any_nil, decide_true, Bool.true_and,
    Bool.or_false, List.countP_singleton, List.map_cons, List.map_nil, if_true, succeeds.row,
    sealed.checks]
  rfl

namespace ClientStateStore

variable {store : ClientStateStore}

/-- A commit without faults, once it is prepared. -/
theorem commit_of_prepared (usable : store.poisoned = false) (matched : store.Matches disk)
    (prepared : prepareCommit A P store.cached state (some nonce) = .ok candidate) :
    store.commit A P disk state (some nonce) .sound =
      (.done, { store with cached := candidate }, { disk with rows := [candidate.row] }) := by
  obtain ⟨sealed, succeeds, _⟩ := prepareCommit_spec prepared
  have applied := commitIn_of_rows matched.valid matched.rows succeeds sealed
  simp [commit, commitInner, usable, prepared, applied, Storage.transact]

/-- A commit that cannot be prepared changes nothing but the handle. -/
theorem commit_of_unprepared {e : LabError} {nonce : Option StateNonce} {storage : Storage}
    (usable : store.poisoned = false) (unprepared : prepareCommit A P store.cached state nonce =
      .error e) :
    store.commit A P disk state nonce storage =
      (.refused e, { store with poisoned := true }, disk) := by
  simp [commit, commitInner, usable, unprepared]

end ClientStateStore

end Commit

section Create

variable {protector : StateKeyProtector} {binding : ProfileBinding} {dek : Dek} {wrapped : Bytes}
variable {state : Bytes} {nonce : StateNonce} {cached : StateCache}

/-- A first snapshot can be made up to the exact limits. -/
theorem prepareCreate_iff (tagged : A.Tagged) (expected : protector.expectedBinding = .ok binding)
    (wraps : protector.wrapDek dek = .ok wrapped) :
    (∃ cached, prepareCreate A P protector .empty state (some dek) (some nonce) = .ok cached) ↔
      state.length ≤ maxPlaintextBytes ∧ 1 ≤ wrapped.length ∧ wrapped.length ≤ 8192 := by
  constructor
  · rintro ⟨cached, prepared⟩
    simp only [prepareCreate, bind_eq_ok, fill_eq_ok] at prepared
    obtain ⟨_, _, _, _, dek', drawn, wrapped', wraps', _, _, _, _, _, sealed, _⟩ := prepared
    cases drawn
    cases wraps.symm.trans wraps'
    obtain ⟨_, _, present, bounded, short⟩ :=
      validateHeader_eq_ok.mp (sealEnvelope_eq_ok.mp sealed).1
    exact ⟨short, List.length_pos_iff.mpr present, bounded⟩
  · rintro ⟨short, present, bounded⟩
    have nonempty := List.length_pos_iff.mp present
    have header : validateHeader 1 wrapped state.length = .ok () :=
      validateHeader_eq_ok.mpr ⟨by decide, by decide, nonempty, bounded, short⟩
    obtain ⟨ciphertext, sealed, length⟩ : ∃ ciphertext,
        sealEnvelope A P binding 1 wrapped dek nonce state = .ok ciphertext ∧
          validateCiphertextLen ciphertext.length = .ok () :=
      sealEnvelope_of_header tagged header
    have small : ¬ (wrapped = [] ∨ wrapped.length > wrappedDekMaxBytes) := by
      rintro (empty | large)
      · exact nonempty empty
      · exact absurd bounded (Nat.not_le.mpr large)
    refine ⟨⟨binding, dek, wrapped, nonce, ciphertext, 1, state⟩, ?_⟩
    simp only [prepareCreate, bind_eq_ok]
    exact ⟨binding, expected, (), rfl, dek, rfl, wrapped, wraps, (), rejectIf_of_not small, nonce,
      rfl, ciphertext, sealed, (), length, rfl⟩

/-- The file of the store with some rows. -/
def StateDb.founded (rows : List StateRow) : StateDb where
  applicationId := SecureMessenger.applicationId
  userVersion := SecureMessenger.userVersion
  objects := [clientStateObject]
  tableList := [clientStateTable, schemaTable]
  tableXinfo := clientStateColumns
  indexCount := 0
  foreignKeyCount := 0
  intact := true
  foreignKeyProblem := false
  rows := rows

theorem StateDb.validateSchema_founded {c : StateCache} (checks : c.row.checks = true) :
    (StateDb.founded [c.row]).validateSchema = .ok () :=
  StateDb.validateSchema_eq_ok.mpr ⟨⟨rfl, rfl, rfl, rfl, rfl, rfl, rfl, rfl, rfl⟩,
    StateCache.rowsValid_of_checks checks⟩

/-- On an empty file the transaction of a creation goes through. -/
theorem createIn_of_sealed (sealed : cached.Sealed A P) (first : cached.generation = 1) :
    createIn .empty cached = .ok (.founded [cached.row]) := by
  have inserted : (StateDb.founded []).insertRow cached.row = .ok (.founded [cached.row]) :=
    bind_eq_ok.mpr ⟨(), rejectIf_of_not (by rw [sealed.checks]; decide),
      bind_eq_ok.mpr ⟨(), rejectIf_of_not Bool.false_ne_true, rfl⟩⟩
  have row : cached.row = { cached.row with generation := 1 } := by
    simp [StateCache.row, first]
  rw [row] at inserted
  simp only [createIn, bind_eq_ok]
  exact ⟨(), rfl, .founded [], rfl, _, inserted, (),
    row ▸ StateDb.validateSchema_founded sealed.checks, row ▸ rfl⟩

end Create

/-- A file that can be read back: its one row meets the constraints of the table, passes
the reader and the checks of the header, and a later open by the same platform returns
the state and the generation. -/
structure ReadsBack (A : Aead) (P : Primitives) (disk : StateDb) (protector : StateKeyProtector)
    (state : Bytes) (generation : UInt64) : Prop where
  row : ∃ row, disk.rows = [row] ∧ row.checks = true
  header : ∃ binding stored, protector.expectedBinding = .ok binding ∧
    readRow disk binding = .ok stored ∧ 16 ≤ stored.ciphertext.length ∧
    stored.ciphertext.length ≤ maxCiphertextBytes ∧
    validateHeader stored.generation stored.wrappedDek (stored.ciphertext.length - 16) = .ok ()
  reopens : ∀ handles process, ∃ id store,
    ((World.mk disk handles).step A P (.openStore process protector .sound)).1 = .opened id ∧
    ((World.mk disk handles).step A P (.openStore process protector .sound)).2.store id =
      some store ∧
    store.state = .ok state ∧ store.generation = .ok generation

theorem readsBack_of_sealed {c : StateCache} {disk : StateDb} {protector : StateKeyProtector}
    (correct : A.Correct) (sealed : c.Sealed A P) (rows : disk.rows = [c.row])
    (valid : disk.validateSchema = .ok ()) (expected : protector.expectedBinding = .ok c.binding)
    (unwrapped : protector.unwrapDek c.wrappedDek = .ok c.dek) :
    ReadsBack A P disk protector c.state c.generation := by
  have opens := sealed.opens correct
  obtain ⟨tagged, short, header, _⟩ := openEnvelope_eq_ok.mp opens
  refine ⟨⟨c.row, rows, sealed.checks⟩, ⟨c.binding, _, expected,
    StateCache.readRow_of_checks rows sealed.checks, tagged, short, header⟩, ?_⟩
  intro handles process
  have found : openIn A P (World.mk disk handles).disk protector = .ok c :=
    StateCache.openIn_of_row rows valid expected unwrapped opens
  have opened : ((World.mk disk handles).step A P (.openStore process protector .sound)).1 =
      .opened handles.length := by
    simp only [World.step, World.openStore, found]
    rfl
  obtain ⟨c', found', listed⟩ := World.openStore_opened opened
  cases found.symm.trans found'
  exact ⟨_, _, opened, listed, World.state_of_usable rfl⟩

/-- The platform of a handle unwraps its key and expects its binding. -/
structure ClientStateStore.Keyed (store : ClientStateStore) : Prop where
  expected : store.protector.expectedBinding = .ok store.cached.binding
  unwrapped : store.protector.unwrapDek store.cached.wrappedDek = .ok store.cached.dek

namespace ClientStateStore

variable {store : ClientStateStore} {disk : StateDb} {state : Bytes}
variable {nonce : Option StateNonce} {storage : Storage}

/-- A commit replaces the cached snapshot by its successor or keeps it. -/
theorem commitInner_cached (store : ClientStateStore) (disk : StateDb) (state : Bytes)
    (nonce : Option StateNonce) (storage : Storage) :
    (store.commitInner A P disk state nonce storage).2.1 = store.cached ∨
      (store.commitInner A P disk state nonce storage).2.1.Succeeds store.cached := by
  unfold commitInner
  split
  · exact .inl rfl
  · next candidate prepared =>
    split
    · exact .inr (prepareCommit_spec prepared).2.1
    · exact .inl rfl

/-- The successor of a snapshot has its binding and its key. -/
theorem Keyed.succeeds (keyed : store.Keyed) {candidate : StateCache}
    (succeeds : candidate.Succeeds store.cached) (poisoned : Bool) :
    Keyed ⟨store.protector, candidate, poisoned⟩ where
  expected := by
    rw [succeeds.binding]
    exact keyed.expected
  unwrapped := by
    rw [succeeds.wrappedDek, succeeds.dek]
    exact keyed.unwrapped

theorem Keyed.commit (keyed : store.Keyed) :
    (store.commit A P disk state nonce storage).2.1.Keyed := by
  have renewed : ∀ cached poisoned, (cached = store.cached ∨ cached.Succeeds store.cached) →
      Keyed ⟨store.protector, cached, poisoned⟩ := by
    rintro cached poisoned (rfl | succeeds)
    · exact ⟨keyed.expected, keyed.unwrapped⟩
    · exact keyed.succeeds succeeds poisoned
  have cached := commitInner_cached (A := A) (P := P) store disk state nonce storage
  unfold ClientStateStore.commit
  split
  · exact keyed
  · generalize store.commitInner A P disk state nonce storage = result at cached ⊢
    obtain ⟨verdict, next, disk'⟩ := result
    cases verdict <;> exact renewed next _ cached

end ClientStateStore

namespace World

variable {w : World} {inputs : List Input}

/-- Every handle is keyed, also a poisoned one. -/
def Keyed (w : World) : Prop := ∀ id h, w.handle id = some h → h.store.Keyed

theorem Keyed.kill (keyed : w.Keyed) (disk : StateDb) (process : Nat) :
    ({ w with disk }.kill process).Keyed := by
  intro id h held
  rw [handle_kill] at held
  exact keyed id h (Option.filter_eq_some_iff.mp held).1

theorem Keyed.set (keyed : w.Keyed) (disk : StateDb) (id : Nat) {held : Option Handle}
    (own : ∀ h, held = some h → h.store.Keyed) : (World.mk disk (w.handles.set id held)).Keyed := by
  intro id' h listed
  rw [handle_set] at listed
  split at listed
  · exact own h listed
  · exact keyed id' h listed

theorem Keyed.add (keyed : w.Keyed) (disk : StateDb) {h : Handle} (own : h.store.Keyed) :
    ({ w with disk }.add h).2.Keyed := by
  intro id h' listed
  simp only [World.add, handle_append] at listed
  split at listed
  · cases listed
    exact own
  · exact keyed id h' listed

/-- Only `create` needs the platform's law: the others were told the key by it. -/
theorem Keyed.step (keyed : w.Keyed) (input : Input)
    (lawful : ∀ protector, input.protector? = some protector → protector.Unwraps) :
    (w.step A P input).2.Keyed := by
  cases input with
  | create process protector seen state dek nonce storage =>
      simp only [World.step, World.create]
      split
      · exact keyed
      · next cached prepared =>
        obtain ⟨_, _, _, expected, wraps⟩ := prepareCreate_spec prepared
        split
        · next disk _ => exact keyed.add disk ⟨expected, lawful protector rfl _ _ wraps⟩
        · exact keyed
        · next disk _ => exact keyed.kill disk process
  | openStore process protector storage =>
      cases found : openIn A P w.disk protector with
      | error e => cases storage <;> simp only [World.step, World.openStore, found] <;>
          first | exact keyed | exact keyed.kill w.disk process
      | ok cached =>
          obtain ⟨_, _, expected, unwrapped, _⟩ := openIn_spec found
          cases storage <;> simp only [World.step, World.openStore, found] <;>
            first | exact keyed | exact keyed.kill w.disk process |
              exact keyed.add w.disk ⟨expected, unwrapped⟩
  | commit id state nonce storage =>
      simp only [World.step, World.commit]
      split
      · exact keyed
      · next h held =>
        have own : (h.store.commit A P w.disk state nonce storage).2.1.Keyed :=
          (keyed id h held).commit
        generalize h.store.commit A P w.disk state nonce storage = result at own ⊢
        obtain ⟨verdict, store, disk⟩ := result
        cases verdict with
        | done => exact keyed.set disk id (by rintro _ ⟨rfl⟩; exact own)
        | refused e => exact keyed.set disk id (by rintro _ ⟨rfl⟩; exact own)
        | died => exact keyed.kill disk h.process
  | drop id => exact keyed.set w.disk id (by rintro _ ⟨⟩)
  | crash process => exact keyed.kill w.disk process
  | tamper image => exact keyed

theorem keyed_after (lawful : ∀ input ∈ inputs, ∀ protector, input.protector? = some protector →
    protector.Unwraps) : (after A P inputs).Keyed := by
  induction inputs using List.reverseRecOn with
  | nil =>
      intro id h held
      simp [handle, after, Machine.run, initial] at held
  | append_singleton inputs input ih =>
      rw [after_concat]
      exact (ih fun input' member => lawful input' (List.mem_append_left _ member)).step input
        (lawful input (by simp))

end World

section Arithmetic

variable {binding : ProfileBinding} {generation : UInt64} {wrappedDek : Bytes} {dek : Dek}
variable {nonce : StateNonce} {ciphertext : Bytes} {db : StateDb}

/-- Subtraction of lengths; the program stops below zero. -/
def subStopping (a b : Nat) : Option Nat := if b ≤ a then some (a - b) else none

/-- Opening, where the subtraction may stop the program. -/
def openStopping (A : Aead) (P : Primitives) (binding : ProfileBinding) (generation : UInt64)
    (wrappedDek : Bytes) (dek : Dek) (nonce : StateNonce) (ciphertext : Bytes) :
    Option (Except LabError Bytes) :=
  if ciphertext.length < 16 ∨ ciphertext.length > maxCiphertextBytes then some (.error .storage)
  else do
    let plaintextLen ← subStopping ciphertext.length 16
    some do
      validateHeader generation wrappedDek plaintextLen
      let aad ← aad P binding generation wrappedDek
      match A.decrypt dek nonce aad ciphertext with
      | none => .error .storage
      | some plaintext => .ok plaintext

/-- Reading a row, where the conversions of the nonce and the generation may stop the
program. -/
def readRowStopping (db : StateDb) (binding : ProfileBinding) :
    Option (Except LabError StoredRow) :=
  match db.rows.find? (fun row => row.slot = slot) with
  | none => some (.error .storage)
  | some row =>
      if row.profileId.length ≠ 16 ∨ row.generation < 1 ∨
        row.envelopeVersion ≠ envelopeVersion ∨ row.stateSchemaVersion ≠ stateSchemaVersion ∨
        row.cryptoSuite ≠ cryptoSuite ∨ row.keyRef.length ≠ 16 ∨ row.wrappedDek.length < 1 ∨
        row.wrappedDek.length > wrappedDekMaxBytes ∨ row.nonce.length ≠ nonceBytes ∨
        row.ciphertext.length < 16 ∨ row.ciphertext.length > maxCiphertextBytes then
        some (.error .storage)
      else if row.profileId ≠ binding.profileId.toList ∨ row.keyRef ≠ binding.keyRef.toList then
        some (.error .storage)
      else do
        let nonce ← FixedBytes.fromSlice 24 row.nonce
        let generation ← toU64 row.generation
        some (.ok { generation, wrappedDek := row.wrappedDek, nonce, ciphertext := row.ciphertext })

theorem openStopping_eq :
    openStopping A P binding generation wrappedDek dek nonce ciphertext =
      some (openEnvelope A P binding generation wrappedDek dek nonce ciphertext) := by
  unfold openStopping openEnvelope
  split
  · next outside => rw [rejectIf_of outside, error_bind]
  · next inside =>
    rw [rejectIf_of_not inside, ok_bind, subStopping, if_pos (by omega)]
    rfl

/-- A signed word that is not negative is an unsigned word. -/
theorem toU64_of_range {value : Int} (positive : 1 ≤ value) (signed : value < 2 ^ 63) :
    ∃ generation, toU64 value = some generation := by
  refine ⟨_, if_pos ⟨by omega, ?_⟩⟩
  omega

theorem readRowStopping_eq (signed : ∀ row ∈ db.rows, row.generation < 2 ^ 63) :
    readRowStopping db binding = some (readRow db binding) := by
  unfold readRowStopping readRow
  cases found : db.rows.find? (fun row => row.slot = slot) with
  | none => rfl
  | some row =>
      dsimp only
      split
      · next outside => rw [rejectIf_of outside, error_bind]
      · next inside =>
        rw [rejectIf_of_not inside, ok_bind]
        split
        · next foreign => rw [rejectIf_of foreign, error_bind]
        · next own =>
          have drawn : nonceBytes = 24 := rfl
          obtain ⟨nonce, loaded⟩ : ∃ nonce, FixedBytes.fromSlice 24 row.nonce = some nonce :=
            ⟨_, dif_pos (by omega)⟩
          obtain ⟨generation, converted⟩ := toU64_of_range (Int.not_lt.mp (by omega))
            (signed row (List.mem_of_find?_eq_some found))
          rw [rejectIf_of_not own, ok_bind, loaded, converted]
          rfl

end Arithmetic

/-- No length and no generation leaves its type on the way through the store. The
generations of a file are signed words. -/
structure InRange (A : Aead) (P : Primitives) : Prop where
  opening : ∀ binding generation wrappedDek dek nonce ciphertext,
    openStopping A P binding generation wrappedDek dek nonce ciphertext =
      some (openEnvelope A P binding generation wrappedDek dek nonce ciphertext)
  reading : ∀ (db : StateDb) binding, (∀ row ∈ db.rows, row.generation < 2 ^ 63) →
    readRowStopping db binding = some (readRow db binding)
  framing : ∀ binding generation wrappedDek,
    ∃ encoded, aad P binding generation wrappedDek = .ok encoded
  committing : ∀ cached state nonce candidate,
    prepareCommit A P cached state nonce = .ok candidate →
      candidate.generation.toNat = cached.generation.toNat + 1 ∧
      toI64 cached.generation = .ok cached.generation.toNat ∧
      toI64 candidate.generation = .ok candidate.generation.toNat

theorem inRange (A : Aead) (P : Primitives) : InRange A P where
  opening _ _ _ _ _ _ := openStopping_eq
  reading _ _ signed := readRowStopping_eq signed
  framing binding generation wrappedDek := ⟨_, aad_eq P binding generation wrappedDek⟩
  committing := by
    intro cached state nonce candidate prepared
    obtain ⟨sealed, succeeds, _⟩ := prepareCommit_spec prepared
    obtain ⟨_, signed, _⟩ := validateHeader_eq_ok.mp sealed.header
    have next := succeeds.generation
    exact ⟨next, toI64_eq_ok.mpr ⟨by omega, rfl⟩, toI64_eq_ok.mpr ⟨signed, rfl⟩⟩

/-- A commit without faults succeeds up to the exact limits, and what it writes reads
back. -/
structure CommitLimits (A : Aead) (P : Primitives) (store : ClientStateStore) (disk : StateDb) :
    Prop where
  precise : ∀ state nonce, (store.commit A P disk state (some nonce) .sound).1 = .done ↔
    state.length ≤ 8388592 ∧ store.cached.generation.toNat < 2 ^ 63 - 1
  readsBack : ∀ state nonce, (store.commit A P disk state (some nonce) .sound).1 = .done →
    ∃ generation, generation.toNat = store.cached.generation.toNat + 1 ∧
      ReadsBack A P (store.commit A P disk state (some nonce) .sound).2.2 store.protector state
        generation

/-- A creation on an empty file without faults succeeds up to the exact limits, and what
it writes reads back. -/
structure CreateLimits (A : Aead) (P : Primitives) (protector : StateKeyProtector) (dek : Dek)
    (wrapped : Bytes) : Prop where
  precise : ∀ handles process state nonce,
    (∃ id, ((World.mk .empty handles).step A P
      (.create process protector .empty state (some dek) (some nonce) .sound)).1 = .opened id) ↔
    state.length ≤ 8388592 ∧ 1 ≤ wrapped.length ∧ wrapped.length ≤ 8192
  readsBack : ∀ handles process state nonce id,
    ((World.mk .empty handles).step A P
      (.create process protector .empty state (some dek) (some nonce) .sound)).1 = .opened id →
    ReadsBack A P ((World.mk .empty handles).step A P
      (.create process protector .empty state (some dek) (some nonce) .sound)).2.disk protector
      state 1

theorem commitLimits_of_matches (tagged : A.Tagged) (correct : A.Correct) {store : ClientStateStore}
    {disk : StateDb} (keyed : store.Keyed) (usable : store.poisoned = false)
    (matched : store.Matches disk) : CommitLimits A P store disk := by
  have checks := StateCache.checks_of_valid matched.valid matched.rows
  have prepares : ∀ state nonce,
      (store.commit A P disk state (some nonce) .sound).1 = .done ↔
        ∃ candidate, prepareCommit A P store.cached state (some nonce) = .ok candidate := by
    intro state nonce
    cases prepared : prepareCommit A P store.cached state (some nonce) with
    | error e =>
        rw [ClientStateStore.commit_of_unprepared usable prepared]
        simp
    | ok candidate =>
        rw [ClientStateStore.commit_of_prepared usable matched prepared]
        simp
  refine ⟨fun state nonce => (prepares state nonce).trans (prepareCommit_iff tagged checks), ?_⟩
  intro state nonce done
  obtain ⟨candidate, prepared⟩ := (prepares state nonce).mp done
  obtain ⟨sealed, succeeds, rfl, _⟩ := prepareCommit_spec prepared
  rw [ClientStateStore.commit_of_prepared usable matched prepared]
  have schema := (StateDb.validateSchema_eq_ok.mp matched.valid).1.withRows [candidate.row]
  have valid : StateDb.validateSchema { disk with rows := [candidate.row] } = .ok () :=
    StateDb.validateSchema_eq_ok.mpr ⟨schema, StateCache.rowsValid_of_checks sealed.checks⟩
  have renewed := keyed.succeeds succeeds false
  exact ⟨candidate.generation, succeeds.generation,
    readsBack_of_sealed correct sealed rfl valid renewed.expected renewed.unwrapped⟩

theorem createLimits_of_wraps (tagged : A.Tagged) (correct : A.Correct)
    {protector : StateKeyProtector} {binding : ProfileBinding} {dek : Dek} {wrapped : Bytes}
    (lawful : protector.Unwraps)
    (expected : protector.expectedBinding = .ok binding)
    (wraps : protector.wrapDek dek = .ok wrapped) : CreateLimits A P protector dek wrapped := by
  have prepares : ∀ handles process state nonce,
      (∃ id, ((World.mk .empty handles).step A P
        (.create process protector .empty state (some dek) (some nonce) .sound)).1 =
          .opened id) ↔
      ∃ cached, prepareCreate A P protector .empty state (some dek) (some nonce) = .ok cached := by
    intro handles process state nonce
    cases prepared : prepareCreate A P protector .empty state (some dek) (some nonce) with
    | error e => simp [World.step, World.create, prepared]
    | ok cached =>
        obtain ⟨sealed, first, _⟩ := prepareCreate_spec prepared
        simp [World.step, World.create, prepared, createIn_of_sealed sealed first,
          Storage.transact, World.add]
  refine ⟨fun handles process state nonce => (prepares handles process state nonce).trans
    (prepareCreate_iff tagged expected wraps), ?_⟩
  intro handles process state nonce id opened
  obtain ⟨cached, prepared⟩ := (prepares handles process state nonce).mp ⟨id, opened⟩
  obtain ⟨sealed, first, rfl, expected', wraps'⟩ := prepareCreate_spec prepared
  have disk : ((World.mk .empty handles).step A P (.create process protector .empty cached.state
      (some dek) (some nonce) .sound)).2.disk = .founded [cached.row] := by
    simp only [World.step, World.create, prepared, createIn_of_sealed sealed first,
      Storage.transact]
    rfl
  rw [disk, ← first]
  exact readsBack_of_sealed correct sealed rfl (StateDb.validateSchema_founded sealed.checks)
    expected' (lawful _ _ wraps')

/-- Everything the store writes it can read back, up to the exact limits. A usable handle
of any run, on any file that passes `validateSchema` and holds the row of the handle, commits
a state exactly if the state has at most 8388592 bytes and the generation is below the largest
signed word. A creation succeeds exactly if the state has at most 8388592 bytes and the
wrapped key has 1 to 8192. What was written meets all constraints and opens to the same state
and generation. -/
theorem written_state_reads_back (tagged : A.Tagged) (correct : A.Correct) :
    (∀ inputs : List Input, (∀ input ∈ inputs, ∀ protector, input.protector? = some protector →
        protector.Unwraps) →
      ∀ id store, (World.after A P inputs).store id = some store → store.poisoned = false →
        ∀ disk, store.Matches disk → CommitLimits A P store disk) ∧
    (∀ protector binding dek wrapped, StateKeyProtector.Unwraps protector →
      protector.expectedBinding = .ok binding → protector.wrapDek dek = .ok wrapped →
        CreateLimits A P protector dek wrapped) ∧
    InRange A P := by
  refine ⟨?_, ?_, inRange A P⟩
  · intro inputs lawful id store listed usable disk matched
    obtain ⟨h, held, rfl⟩ := Option.map_eq_some_iff.mp listed
    exact commitLimits_of_matches tagged correct (World.keyed_after lawful id h held) usable matched
  · intro protector binding dek wrapped lawful expected wraps
    exact createLimits_of_wraps tagged correct lawful expected wraps

namespace Aead

/-- A cipher without secrecy, whose tag is 16 zero bytes. -/
def padding : Aead where
  encrypt _ _ _ plaintext := some (plaintext ++ List.replicate 16 0)
  decrypt _ _ _ ciphertext :=
    if ciphertext.drop (ciphertext.length - 16) = List.replicate 16 0 then
      some (ciphertext.take (ciphertext.length - 16))
    else none

theorem padding_tagged : padding.Tagged := by
  intro key nonce bound plaintext _
  exact ⟨_, rfl, by simp⟩

theorem padding_correct : padding.Correct := by
  rintro key nonce bound plaintext _ ⟨rfl⟩
  simp [padding]

end Aead

theorem StateKeyProtector.symbolic_unwraps (binding : ProfileBinding) :
    (StateKeyProtector.symbolic binding).Unwraps := by
  rintro dek _ ⟨rfl⟩
  have body : (binding.profileId.toList ++ binding.keyRef.toList ++ dek.toList).drop 32 =
      dek.toList :=
    List.drop_left' (by simp [FixedBytes.length_toList])
  simp only [symbolic, body, FixedBytes.fromSlice_toList, if_pos (List.prefix_append _ _)]

namespace Oversized

open World.Contention (protector)

def created : List Input :=
  [.create 0 protector .empty [10] (some (.fill 32 3)) (some (.fill 24 4)) .sound]

def commit (state : Bytes) : Input := .commit 0 state (some (.fill 24 5)) .sound

theorem lawful {inputs : List Input} (only : ∀ input ∈ inputs, ∀ p, input.protector? = some p →
    p = protector) : ∀ input ∈ inputs, ∀ p, input.protector? = some p → p.Unwraps := by
  intro input member p brings
  rw [only input member p brings]
  exact StateKeyProtector.symbolic_unwraps _

/-- The creation left a usable handle whose row is in the file. -/
theorem store_created : ∃ store, (World.after .padding .symbolic created).store 0 = some store ∧
    store.poisoned = false ∧ store.cached.generation = 1 ∧
    store.Matches (World.after .padding .symbolic created).disk := by
  have found : ((World.after .padding .symbolic created).store 0).isSome = true := by
    decide +kernel
  have usable : ∀ store ∈ (World.after .padding .symbolic created).store 0,
      store.poisoned = false ∧ store.cached.generation = 1 ∧
      (World.after .padding .symbolic created).disk.rows = [store.cached.row] := by
    decide +kernel
  obtain ⟨store, listed⟩ := Option.isSome_iff_exists.mp found
  obtain ⟨usable, first, rows⟩ := usable store listed
  exact ⟨store, listed, usable, first, by decide +kernel, rows⟩

end Oversized

open Oversized in
theorem written_state_reads_back_small :
    ∃ store, (World.after .padding .symbolic created).store 0 = some store ∧
      (store.commit .padding .symbolic (World.after .padding .symbolic created).disk [11]
        (some (.fill 24 5)) .sound).1 = .done := by
  obtain ⟨store, listed, usable, first, matched⟩ := store_created
  have limits := (written_state_reads_back Aead.padding_tagged Aead.padding_correct).1 created
    (lawful (by simp [created, Input.protector?, eq_comm])) 0 store listed usable _ matched
  refine ⟨store, listed, (limits.precise [11] (.fill 24 5)).mpr ⟨by decide, ?_⟩⟩
  rw [first]
  decide

open Oversized in
/-- After a commit of a state that is one byte too long the file still holds the row of
the handle, and the handle is poisoned: it cannot commit a state of any length. -/
theorem poisoned_handle_refuses :
    Aead.padding.Tagged ∧ Aead.padding.Correct ∧ ∃ state : Bytes, state.length = 8388593 ∧
    (∀ input ∈ created ++ [commit state], ∀ p, input.protector? = some p → p.Unwraps) ∧
    ∃ store, (World.after .padding .symbolic (created ++ [commit state])).store 0 = some store ∧
      store.Matches (World.after .padding .symbolic (created ++ [commit state])).disk ∧
      ¬ CommitLimits .padding .symbolic store
        (World.after .padding .symbolic (created ++ [commit state])).disk := by
  obtain ⟨state, long⟩ : ∃ state : Bytes, state.length = 8388593 :=
    ⟨List.replicate 8388593 0, List.length_replicate⟩
  refine ⟨Aead.padding_tagged, Aead.padding_correct, state, long,
    lawful (by simp [created, commit, Input.protector?, eq_comm]), ?_⟩
  obtain ⟨store, listed, usable, first, matched⟩ := store_created
  obtain ⟨h, held, rfl⟩ := Option.map_eq_some_iff.mp listed
  have checks := StateCache.checks_of_valid matched.valid matched.rows
  obtain ⟨e, unprepared⟩ : ∃ e, prepareCommit .padding .symbolic h.store.cached state
      (some (.fill 24 5)) = .error e := by
    cases prepared : prepareCommit .padding .symbolic h.store.cached state
      (some (.fill 24 5)) with
    | error e => exact ⟨e, rfl⟩
    | ok candidate =>
        have short := ((prepareCommit_iff Aead.padding_tagged checks).mp ⟨candidate, prepared⟩).1
        rw [long] at short
        exact absurd short (by decide)
  have after : World.after .padding .symbolic (created ++ [commit state]) =
      ⟨(World.after .padding .symbolic created).disk,
        (World.after .padding .symbolic created).handles.set 0 (some h.poison)⟩ := by
    rw [World.after_concat]
    simp only [commit, World.step, World.commit, held,
      ClientStateStore.commit_of_unprepared usable unprepared]
    rfl
  rw [after]
  refine ⟨h.poison.store, ?_, ⟨matched.valid, matched.rows⟩, ?_⟩
  · simp only [World.store, World.handle_set, true_and, World.handle_lt held, if_true,
      Option.map_some]
  · intro limits
    have below : h.poison.store.cached.generation.toNat < 2 ^ 63 - 1 := by
      show h.store.cached.generation.toNat < _
      rw [first]
      decide
    have done := (limits.precise [] (.fill 24 6)).mpr ⟨by decide, below⟩
    cases done

end SecureMessenger
