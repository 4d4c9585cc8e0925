import SecureMessenger.Persistence.Store

/-!
# What one input can do to the state store

The first part says what the four pieces of the store guarantee when they succeed:
a prepared snapshot is sealed and numbered, a creation finds an empty file and
leaves one row, a commit finds exactly the cached row and replaces it.

`World.Effect` lists everything a step can do to the file and to the handles.
Either the file stays as it is and handles only fade, that is, they are dropped or
poisoned; or a handle is added; or a transaction takes effect, and then its caller
may or may not have learnt of it.
-/

namespace SecureMessenger

open Fallible Envelope

variable {A : Aead} {P : Primitives}

theorem fill_eq_ok {α : Type} {bytes : Option α} {value : α} :
    fill bytes = .ok value ↔ bytes = some value := by
  cases bytes with
  | none => simp [fill]
  | some bytes => simp [fill]

namespace StateCache

/-- The columns of a snapshot. -/
def row (c : StateCache) : StateRow where
  slot := SecureMessenger.slot
  profileId := c.binding.profileId.toList
  generation := c.generation.toNat
  envelopeVersion := SecureMessenger.envelopeVersion
  stateSchemaVersion := SecureMessenger.stateSchemaVersion
  cryptoSuite := SecureMessenger.cryptoSuite
  keyRef := c.binding.keyRef.toList
  wrappedDek := c.wrappedDek
  nonce := c.nonce.toList
  ciphertext := c.ciphertext

/-- The sealed form of a snapshot was made from its plain form. -/
structure Sealed (A : Aead) (P : Primitives) (c : StateCache) : Prop where
  sealed : sealEnvelope A P c.binding c.generation c.wrappedDek c.dek c.nonce c.state =
    .ok c.ciphertext
  tagged : 16 ≤ c.ciphertext.length

/-- The sealed form of a snapshot opens to its plain form. -/
def Opens (A : Aead) (P : Primitives) (c : StateCache) : Prop :=
  openEnvelope A P c.binding c.generation c.wrappedDek c.dek c.nonce c.ciphertext = .ok c.state

theorem Sealed.opens {c : StateCache} (sealed : c.Sealed A P) (correct : A.Correct) :
    c.Opens A P :=
  openEnvelope_sealEnvelope correct sealed.sealed sealed.tagged

/-- The next snapshot of the same profile under the same key. -/
structure Succeeds (next c : StateCache) : Prop where
  binding : next.binding = c.binding
  dek : next.dek = c.dek
  wrappedDek : next.wrappedDek = c.wrappedDek
  generation : next.generation.toNat = c.generation.toNat + 1

/-- A commit rewrites three columns. -/
theorem Succeeds.row {next c : StateCache} (succeeds : next.Succeeds c) :
    { c.row with
      generation := next.generation.toNat
      nonce := next.nonce.toList
      ciphertext := next.ciphertext } = next.row := by
  simp only [StateCache.row, succeeds.binding, succeeds.wrappedDek]

/-- A row determines everything of its snapshot but the key and the plain form. -/
theorem eq_of_row {c c' : StateCache} (same : c.row = c'.row) :
    c.binding = c'.binding ∧ c.generation = c'.generation ∧ c.wrappedDek = c'.wrappedDek ∧
      c.nonce = c'.nonce ∧ c.ciphertext = c'.ciphertext := by
  simp only [row, StateRow.mk.injEq, FixedBytes.toList_inj, Int.ofNat_inj, UInt64.toNat_inj,
    true_and] at same
  obtain ⟨profileId, generation, keyRef, wrappedDek, nonce, ciphertext⟩ := same
  exact ⟨ProfileBinding.ext profileId keyRef, generation, wrappedDek, nonce, ciphertext⟩

end StateCache

theorem prepareCreate_spec {protector : StateKeyProtector} {seen : StateDb} {state : Bytes}
    {dek : Option Dek} {nonce : Option StateNonce} {cached : StateCache}
    (h : prepareCreate A P protector seen state dek nonce = .ok cached) :
    cached.Sealed A P ∧ cached.generation = 1 ∧ cached.state = state ∧
      protector.expectedBinding = .ok cached.binding ∧
      protector.wrapDek cached.dek = .ok cached.wrappedDek := by
  simp only [prepareCreate, bind_eq_ok, fill_eq_ok, validateCiphertextLen, rejectIf_eq_ok,
    not_or, Except.ok.injEq, Nat.not_lt] at h
  obtain ⟨binding, expected, _, _, dek, _, wrappedDek, wrapped, _, _, nonce, _, ciphertext,
    sealed, _, ⟨tagged, _⟩, rfl⟩ := h
  exact ⟨⟨sealed, tagged⟩, rfl, rfl, expected, wrapped⟩

theorem prepareCommit_spec {cached candidate : StateCache} {state : Bytes}
    {nonce : Option StateNonce} (h : prepareCommit A P cached state nonce = .ok candidate) :
    candidate.Sealed A P ∧ candidate.Succeeds cached ∧ candidate.state = state ∧
      nonce = some candidate.nonce := by
  simp only [prepareCommit, bind_eq_ok, fill_eq_ok, validateCiphertextLen, rejectIf_eq_ok,
    not_or, Except.ok.injEq, Nat.not_lt, ge_iff_le, Nat.not_le] at h
  obtain ⟨_, room, nonce, drawn, ciphertext, sealed, _, ⟨tagged, _⟩, rfl⟩ := h
  refine ⟨⟨sealed, tagged⟩, ⟨rfl, rfl, rfl, ?_⟩, rfl, drawn⟩
  show (cached.generation + 1).toNat = cached.generation.toNat + 1
  rw [UInt64.toNat_add]
  exact Nat.mod_eq_of_lt room

/-- A creation finds an empty file and leaves its row under the schema. -/
theorem createIn_spec {db db' : StateDb} {cached : StateCache} (first : cached.generation = 1)
    (h : createIn db cached = .ok db') :
    db.validateEmptyDatabase = .ok () ∧ db'.HasSchema ∧ db'.rows = [cached.row] := by
  simp only [createIn, bind_eq_ok, Except.ok.injEq] at h
  obtain ⟨_, vacant, _, created, _, inserted, _, valid, rfl⟩ := h
  refine ⟨vacant, (StateDb.validateSchema_eq_ok.mp valid).1, ?_⟩
  simp only [StateDb.createSchema, bind_eq_ok, Except.ok.injEq] at created
  obtain ⟨_, _, rfl⟩ := created
  simp only [StateDb.insertRow, bind_eq_ok, Except.ok.injEq] at inserted
  obtain ⟨_, _, _, _, rfl⟩ := inserted
  simp [StateCache.row, first]

/-- An empty file does not have the schema. -/
theorem StateDb.HasSchema.not_empty {db : StateDb} (schema : db.HasSchema) :
    db.validateEmptyDatabase ≠ .ok () := by
  intro vacant
  simp only [StateDb.validateEmptyDatabase, rejectIf_eq_ok, not_or, not_not, ne_eq] at vacant
  exact absurd (vacant.1.symm.trans schema.application) (by decide)

/-- The comparison of a commit selects the cached row and no other. -/
theorem selected_iff {cached : StateCache} {row : StateRow} :
    (row.slot = slot ∧ row.generation = cached.generation.toNat ∧
      row.profileId = cached.binding.profileId.toList ∧
      row.keyRef = cached.binding.keyRef.toList ∧ row.envelopeVersion = envelopeVersion ∧
      row.stateSchemaVersion = stateSchemaVersion ∧ row.cryptoSuite = cryptoSuite ∧
      row.wrappedDek = cached.wrappedDek ∧ row.nonce = cached.nonce.toList ∧
      row.ciphertext = cached.ciphertext) ↔ row = cached.row := by
  constructor
  · rintro ⟨slot, generation, profileId, keyRef, version, schema, suite, wrappedDek, nonce,
      ciphertext⟩
    cases row
    simp_all [StateCache.row]
  · rintro rfl
    simp [StateCache.row]

/-- A commit goes through on the cached row and on no other file, and changes
three columns of it. -/
theorem commitIn_spec {db db' : StateDb} {cached candidate : StateCache}
    (h : commitIn db cached candidate = .ok db') :
    db.HasSchema ∧ db.rows = [cached.row] ∧
      db' = { db with rows := [{ cached.row with
        generation := candidate.generation.toNat
        nonce := candidate.nonce.toList
        ciphertext := candidate.ciphertext }] } := by
  simp only [commitIn, bind_eq_ok, toI64_eq_ok, rejectIf_eq_ok, not_not, ne_eq,
    Except.ok.injEq] at h
  obtain ⟨_, ⟨_, rfl⟩, _, ⟨_, rfl⟩, _, valid, ⟨_, _⟩, updated, _, rfl, rfl⟩ := h
  obtain ⟨schema, valid⟩ := StateDb.validateSchema_eq_ok.mp valid
  obtain ⟨one, same⟩ := StateDb.updateRows_eq_ok updated
  simp only [selected_iff] at one same
  obtain ⟨row, member, selected⟩ := List.countP_pos_iff.mp (Nat.lt_of_lt_of_eq Nat.one_pos one)
  have rows : db.rows = [cached.row] :=
    (of_decide_eq_true selected) ▸ valid.eq_singleton member
  refine ⟨schema, rows, same.trans ?_⟩
  simp only [rows, List.map_cons, List.map_nil, decide_true, if_true]

/-- The row a reader accepts is determined by the binding and what it returns. -/
theorem readRow_spec {db : StateDb} {binding : ProfileBinding} {stored : StoredRow}
    (h : readRow db binding = .ok stored) :
    ({ slot
       profileId := binding.profileId.toList
       generation := stored.generation.toNat
       envelopeVersion
       stateSchemaVersion
       cryptoSuite
       keyRef := binding.keyRef.toList
       wrappedDek := stored.wrappedDek
       nonce := stored.nonce.toList
       ciphertext := stored.ciphertext } : StateRow) ∈ db.rows := by
  unfold readRow at h
  split at h
  · cases h
  · next row found =>
    simp only [bind_eq_ok, rejectIf_eq_ok, not_or, not_not, ne_eq] at h
    obtain ⟨_, ⟨_, _, version, schema, suite, _⟩, _, ⟨profileId, keyRef⟩, h⟩ := h
    split at h
    · next nonce generation sized converted =>
      cases h
      have place : row.slot = slot := by simpa using List.find?_some found
      have loaded := FixedBytes.toList_of_fromSlice sized
      have number := toU64_eq_some converted
      refine List.mem_of_find?_eq_some (p := fun row => row.slot = slot) ?_
      rw [found]
      cases row
      simp_all
    · cases h

/-- What a successful open found in the file. -/
theorem openIn_spec {db : StateDb} {protector : StateKeyProtector} {cached : StateCache}
    (h : openIn A P db protector = .ok cached) :
    db.HasSchema ∧ db.rows = [cached.row] ∧ protector.expectedBinding = .ok cached.binding ∧
      protector.unwrapDek cached.wrappedDek = .ok cached.dek ∧ cached.Opens A P := by
  simp only [openIn, bind_eq_ok, Except.ok.injEq] at h
  obtain ⟨binding, expected, _, valid, row, read, dek, unwrapped, state, opens, rfl⟩ := h
  obtain ⟨schema, valid⟩ := StateDb.validateSchema_eq_ok.mp valid
  exact ⟨schema, valid.eq_singleton (readRow_spec read), expected, unwrapped, opens⟩

/-- A transaction leaves the file as it was, and then its caller is not told that
it succeeded, or leaves what its body computed. -/
theorem Storage.transact_cases (storage : Storage) (disk : StateDb)
    (body : Except LabError StateDb) :
    ((storage.transact disk body).2 = disk ∧ (storage.transact disk body).1 ≠ .done) ∨
      body = .ok (storage.transact disk body).2 := by
  cases body with
  | error e => cases storage <;> simp [transact]
  | ok next =>
      cases storage with
      | sound => simp [transact]
      | fails => simp [transact]
      | commitError applied => cases applied <;> simp [transact]
      | crash applied => cases applied <;> simp [transact]

namespace ClientStateStore

variable {store : ClientStateStore} {disk : StateDb} {state : Bytes}
variable {nonce : Option StateNonce} {storage : Storage}

/-- A commit leaves the file as it was, and then it does not succeed, or its
transaction replaced the cached row. -/
theorem commit_cases (store : ClientStateStore) (disk : StateDb) (state : Bytes)
    (nonce : Option StateNonce) (storage : Storage) :
    ((store.commit A P disk state nonce storage).2.2 = disk ∧
      (store.commit A P disk state nonce storage).1 ≠ .done) ∨
    ∃ candidate, store.poisoned = false ∧
      prepareCommit A P store.cached state nonce = .ok candidate ∧
      commitIn disk store.cached candidate =
        .ok (store.commit A P disk state nonce storage).2.2 ∧
      ((store.commit A P disk state nonce storage).1 = .done →
        (store.commit A P disk state nonce storage).2.1 = { store with cached := candidate }) := by
  obtain ⟨protector, cached, poisoned⟩ := store
  cases poisoned with
  | true => exact .inl ⟨rfl, by simp [commit]⟩
  | false =>
      cases prepared : prepareCommit A P cached state nonce with
      | error e => exact .inl (by simp [commit, commitInner, prepared])
      | ok candidate =>
          have outcome := Storage.transact_cases storage disk (commitIn disk cached candidate)
          simp only [commit, commitInner, prepared]
          generalize storage.transact disk (commitIn disk cached candidate) = result at outcome ⊢
          obtain ⟨verdict, next⟩ := result
          obtain ⟨same, unknown⟩ | applied := outcome
          · left
            cases verdict with
            | done => exact absurd rfl unknown
            | refused e => exact ⟨same, by simp⟩
            | died => exact ⟨same, by simp⟩
          · refine .inr ⟨candidate, trivial, rfl, ?_⟩
            cases verdict with
            | done => exact ⟨applied, fun _ => rfl⟩
            | refused e => exact ⟨applied, by simp⟩
            | died => exact ⟨applied, by simp⟩

/-- A commit that returns an error has poisoned its handle. -/
theorem commit_refused {e : LabError}
    (refused : (store.commit A P disk state nonce storage).1 = .refused e) :
    (store.commit A P disk state nonce storage).2.1 = { store with poisoned := true } := by
  obtain ⟨protector, cached, poisoned⟩ := store
  cases poisoned with
  | true => rfl
  | false =>
      cases prepared : prepareCommit A P cached state nonce with
      | error e => simp [commit, commitInner, prepared]
      | ok candidate =>
          simp only [commit, commitInner, prepared] at refused ⊢
          generalize storage.transact disk (commitIn disk cached candidate) = result at refused ⊢
          obtain ⟨verdict, next⟩ := result
          cases verdict with
          | done => cases refused
          | refused e => rfl
          | died => cases refused

/-- A commit dies only in a crash. -/
theorem commit_survives (survives : ∀ applied, storage ≠ .crash applied) :
    (store.commit A P disk state nonce storage).1 ≠ .died := by
  obtain ⟨protector, cached, poisoned⟩ := store
  cases poisoned with
  | true => simp [commit]
  | false =>
      cases prepared : prepareCommit A P cached state nonce with
      | error e => simp [commit, commitInner, prepared]
      | ok candidate =>
          cases body : commitIn disk cached candidate <;> cases storage <;>
            simp_all [commit, commitInner, Storage.transact]

end ClientStateStore

def Handle.poison (h : Handle) : Handle := { h with store := { h.store with poisoned := true } }

namespace World

variable {w w' : World} {id : Nat} {h : Handle}

theorem store_of_handle (held : w.handle id = some h) : w.store id = some h.store := by
  rw [store, held]
  rfl

theorem handle_lt (held : w.handle id = some h) : id < w.handles.length := by
  by_contra beyond
  rw [handle, List.getElem?_eq_none (Nat.not_lt.mp beyond)] at held
  cases held

theorem handle_kill (w : World) (process id : Nat) :
    (w.kill process).handle id =
      (w.handle id).filter (fun handle => handle.process ≠ process) := by
  simp only [handle, kill, List.getElem?_map]
  cases w.handles[id]? <;> rfl

theorem handle_set (disk : StateDb) (hs : List (Option Handle)) (held : Option Handle)
    (id id' : Nat) :
    (World.mk disk (hs.set id held)).handle id' =
      if id = id' ∧ id < hs.length then held else (World.mk disk hs).handle id' := by
  simp only [handle, List.getElem?_set]
  by_cases same : id = id'
  · subst same
    by_cases inside : id < hs.length
    · simp [inside]
    · simp [inside]
  · simp [same]

theorem handle_append (disk : StateDb) (hs : List (Option Handle)) (held : Option Handle)
    (id : Nat) :
    (World.mk disk (hs ++ [held])).handle id =
      if id = hs.length then held else (World.mk disk hs).handle id := by
  simp only [handle, List.getElem?_append]
  by_cases inside : id < hs.length
  · simp [inside, Nat.ne_of_lt inside]
  · by_cases last : id = hs.length
    · simp [last]
    · have beyond : [held][id - hs.length]? = none :=
        List.getElem?_eq_none (by rw [List.length_singleton]; omega)
      simp [inside, last, beyond]

/-- What becomes of the handles. Each one afterwards was there before, unchanged
or now poisoned, or it is a usable handle that took over the snapshot `news`, at a
new place or at the place of a usable one. -/
structure Evolves (w w' : World) (news : Option StateCache) : Prop where
  length : w.handles.length ≤ w'.handles.length
  handle : ∀ id h', w'.handle id = some h' →
    (∃ h, w.handle id = some h ∧ (h' = h ∨ h' = h.poison)) ∨
    (news = some h'.store.cached ∧
      (w.handles.length ≤ id ∨ ∃ h, w.handle id = some h ∧ h.store.poisoned = false))

theorem Evolves.mono (evolves : Evolves w w' none) (news : Option StateCache) :
    Evolves w w' news where
  length := evolves.length
  handle id h' held := by
    obtain old | ⟨impossible, _⟩ := evolves.handle id h' held
    · exact .inl old
    · cases impossible

/-- What every usable handle holds, if the news have the property too. -/
theorem Evolves.held {news : Option StateCache} (evolves : Evolves w w' news)
    {property : StateCache → Prop} (fresh : ∀ c, news = some c → property c)
    (old : ∀ id store, w.store id = some store → store.poisoned = false → property store.cached) :
    ∀ id store, w'.store id = some store → store.poisoned = false → property store.cached := by
  intro id store' listed usable
  obtain ⟨h', held', rfl⟩ := Option.map_eq_some_iff.mp listed
  obtain ⟨h, held, rfl | rfl⟩ | ⟨news, _⟩ := evolves.handle id h' held'
  · exact old id _ (store_of_handle held) usable
  · cases usable
  · exact fresh _ news

/-- The handle is gone or poisoned, and its place is taken. -/
def Spent (w : World) (id : Nat) : Prop :=
  id < w.handles.length ∧ ∀ store, w.store id = some store → store.poisoned = true

/-- A spent handle stays spent. -/
theorem Evolves.spent {news : Option StateCache} (evolves : Evolves w w' news)
    (spent : w.Spent id) : w'.Spent id := by
  refine ⟨Nat.lt_of_lt_of_le spent.1 evolves.length, ?_⟩
  intro store' listed
  obtain ⟨h', held', rfl⟩ := Option.map_eq_some_iff.mp listed
  obtain ⟨h, held, rfl | rfl⟩ | ⟨_, beyond | ⟨h, held, usable⟩⟩ := evolves.handle id h' held'
  · exact spent.2 _ (store_of_handle held)
  · rfl
  · exact absurd spent.1 (Nat.not_lt.mpr beyond)
  · have poisoned := spent.2 h.store (store_of_handle held)
    exact absurd (poisoned.symm.trans usable) (by decide)

theorem evolves_disk (w : World) (disk : StateDb) : Evolves w { w with disk } none where
  length := Nat.le_refl _
  handle _ h' held := .inl ⟨h', held, .inl rfl⟩

theorem evolves_kill (w : World) (disk : StateDb) (process : Nat) :
    Evolves w ({ w with disk }.kill process) none where
  length := by simp [kill]
  handle id h' held := by
    rw [handle_kill] at held
    exact .inl ⟨h', (Option.filter_eq_some_iff.mp held).1, .inl rfl⟩

theorem evolves_drop (w : World) (id : Nat) :
    Evolves w { w with handles := w.handles.set id none } none where
  length := by simp
  handle id' h' held := by
    rw [handle_set] at held
    split at held
    · cases held
    · exact .inl ⟨h', held, .inl rfl⟩

theorem evolves_poison (w : World) (disk : StateDb) (held : w.handle id = some h) :
    Evolves w ⟨disk, w.handles.set id (some h.poison)⟩ none where
  length := by simp
  handle id' h' held' := by
    rw [handle_set] at held'
    split at held'
    · next same =>
      obtain ⟨rfl, _⟩ := same
      cases held'
      exact .inl ⟨h, held, .inr rfl⟩
    · exact .inl ⟨h', held', .inl rfl⟩

theorem evolves_add (w : World) (disk : StateDb) (h : Handle) :
    Evolves w ({ w with disk }.add h).2 (some h.store.cached) where
  length := by simp [add]
  handle id h' held := by
    simp only [add, handle_append] at held
    split at held
    · next last =>
      cases held
      exact .inr ⟨rfl, .inl (Nat.le_of_eq last.symm)⟩
    · exact .inl ⟨h', held, .inl rfl⟩

theorem evolves_renew (w : World) (disk : StateDb) (held : w.handle id = some h)
    (usable : h.store.poisoned = false) (cached : StateCache) :
    Evolves w ⟨disk, w.handles.set id (some { h with store := { h.store with cached } })⟩
      (some cached) where
  length := by simp
  handle id' h' held' := by
    rw [handle_set] at held'
    split at held'
    · next same =>
      obtain ⟨rfl, _⟩ := same
      cases held'
      exact .inr ⟨rfl, .inr ⟨h, held, usable⟩⟩
    · exact .inl ⟨h', held', .inl rfl⟩

/-- Everything an input can do, with the snapshot that takes effect at it. -/
inductive Effect (A : Aead) (P : Primitives) (w : World) :
    Input → Option StateCache → World → Prop
  | idle {input : Input} {w' : World} (disk : w'.disk = w.disk) (evolves : Evolves w w' none) :
      Effect A P w input none w'
  | created {process : Nat} {protector : StateKeyProtector} {seen : StateDb} {state : Bytes}
      {dek : Option Dek} {nonce : Option StateNonce} {storage : Storage} {cached : StateCache}
      {w' : World} (prepared : prepareCreate A P protector seen state dek nonce = .ok cached)
      (applied : createIn w.disk cached = .ok w'.disk) (evolves : Evolves w w' (some cached)) :
      Effect A P w (.create process protector seen state dek nonce storage) (some cached) w'
  | opened {process : Nat} {protector : StateKeyProtector} {storage : Storage}
      {cached : StateCache} {w' : World} (found : openIn A P w.disk protector = .ok cached)
      (disk : w'.disk = w.disk) (evolves : Evolves w w' (some cached)) :
      Effect A P w (.openStore process protector storage) none w'
  | committed {id : Nat} {state : Bytes} {nonce : Option StateNonce} {storage : Storage}
      {store : ClientStateStore} {candidate : StateCache} {w' : World}
      (held : w.store id = some store) (usable : store.poisoned = false)
      (prepared : prepareCommit A P store.cached state nonce = .ok candidate)
      (applied : commitIn w.disk store.cached candidate = .ok w'.disk)
      (evolves : Evolves w w' (some candidate)) :
      Effect A P w (.commit id state nonce storage) (some candidate) w'
  | tampered {image : StateDb} {w' : World} (disk : w'.disk = image)
      (evolves : Evolves w w' none) : Effect A P w (.tamper image) none w'

theorem Effect.evolves {input : Input} {taken : Option StateCache}
    (effect : Effect A P w input taken w') : ∃ news, Evolves w w' news := by
  cases effect with
  | idle _ evolves => exact ⟨none, evolves⟩
  | created _ _ evolves => exact ⟨_, evolves⟩
  | opened _ _ evolves => exact ⟨_, evolves⟩
  | committed _ _ _ _ evolves => exact ⟨_, evolves⟩
  | tampered _ evolves => exact ⟨none, evolves⟩

section Steps

variable {process : Nat} {protector : StateKeyProtector} {seen : StateDb} {state : Bytes}
variable {dek : Option Dek} {nonce : Option StateNonce} {storage : Storage} {input : Input}

/-- Where the file stays as it is, nothing takes effect. -/
theorem effect_of_disk (same : (w.step A P input).2.disk = w.disk) :
    w.effect A P input = none := if_pos same

theorem effect_of_ne (changed : (w.step A P input).2.disk ≠ w.disk) :
    w.effect A P input = w.sealing A P input := if_neg changed

theorem idle_effect (same : (w.step A P input).2.disk = w.disk)
    (evolves : Evolves w (w.step A P input).2 none) :
    Effect A P w input (w.effect A P input) (w.step A P input).2 := by
  rw [effect_of_disk same]
  exact .idle same evolves

/-- A creation leaves another file. -/
theorem createIn_ne {db db' : StateDb} {cached : StateCache} (first : cached.generation = 1)
    (applied : createIn db cached = .ok db') : db' ≠ db := by
  rintro rfl
  obtain ⟨vacant, schema, _⟩ := createIn_spec first applied
  exact schema.not_empty vacant

/-- A commit leaves another file. -/
theorem commitIn_ne {db db' : StateDb} {cached candidate : StateCache}
    (succeeds : candidate.Succeeds cached) (applied : commitIn db cached candidate = .ok db') :
    db' ≠ db := by
  rintro rfl
  obtain ⟨_, rows, same⟩ := commitIn_spec applied
  rw [succeeds.row] at same
  have rows' := congrArg StateDb.rows same
  rw [rows] at rows'
  obtain ⟨_, generation, _⟩ := StateCache.eq_of_row (List.singleton_inj.mp rows')
  have next := succeeds.generation
  rw [generation] at next
  exact absurd next (Nat.ne_of_lt (Nat.lt_succ_self _))

theorem create_effect :
    Effect A P w (.create process protector seen state dek nonce storage)
      (w.effect A P (.create process protector seen state dek nonce storage))
      (w.step A P (.create process protector seen state dek nonce storage)).2 := by
  cases prepared : prepareCreate A P protector seen state dek nonce with
  | error e =>
      refine idle_effect ?_ ?_ <;> simp only [step, create, prepared]
      exact evolves_disk w w.disk
  | ok cached =>
      obtain ⟨_, first, _⟩ := prepareCreate_spec prepared
      have outcome := Storage.transact_cases storage w.disk (createIn w.disk cached)
      -- The three verdicts differ in the handles only.
      have shape : (w.step A P (.create process protector seen state dek nonce storage)).2.disk =
            (storage.transact w.disk (createIn w.disk cached)).2 ∧
          Evolves w (w.step A P (.create process protector seen state dek nonce storage)).2
            (if (storage.transact w.disk (createIn w.disk cached)).1 = .done then some cached
              else none) := by
        simp only [step, create, prepared]
        obtain ⟨verdict, disk⟩ := storage.transact w.disk (createIn w.disk cached)
        cases verdict with
        | done => exact ⟨rfl, evolves_add w disk _⟩
        | refused e => exact ⟨rfl, evolves_disk w disk⟩
        | died => exact ⟨rfl, evolves_kill w disk process⟩
      obtain ⟨disk, evolves⟩ := shape
      obtain ⟨same, unknown⟩ | applied := outcome
      · rw [if_neg unknown] at evolves
        exact idle_effect (disk.trans same) evolves
      · rw [← disk] at applied
        have taken := effect_of_ne (createIn_ne first applied)
        rw [taken, sealing, prepared]
        refine .created prepared applied ?_
        split at evolves
        · exact evolves
        · exact evolves.mono _

theorem openStore_effect :
    Effect A P w (.openStore process protector storage)
      (w.effect A P (.openStore process protector storage))
      (w.step A P (.openStore process protector storage)).2 := by
  have died : Evolves w (w.kill process) none := evolves_kill w w.disk process
  have stays : Evolves w w none := evolves_disk w w.disk
  cases found : openIn A P w.disk protector with
  | error e =>
      refine idle_effect ?_ ?_ <;> cases storage <;> simp only [step, openStore, found]
      · rfl
      all_goals first | exact stays | exact died
  | ok cached =>
      cases storage with
      | sound =>
          rw [effect_of_disk (by simp only [step, openStore, found]; rfl)]
          refine .opened found ?_ ?_ <;> simp only [step, openStore, found]
          · rfl
          · exact evolves_add w w.disk _
      | fails =>
          refine idle_effect ?_ ?_ <;> simp only [step, openStore, found]
          exact stays
      | commitError applied =>
          refine idle_effect ?_ ?_ <;> simp only [step, openStore, found]
          exact stays
      | crash applied =>
          refine idle_effect ?_ ?_ <;> simp only [step, openStore]
          · rfl
          · exact died

theorem commit_effect :
    Effect A P w (.commit id state nonce storage)
      (w.effect A P (.commit id state nonce storage))
      (w.step A P (.commit id state nonce storage)).2 := by
  cases held : w.handle id with
  | none =>
      refine idle_effect ?_ ?_ <;> simp only [step, commit, held]
      exact evolves_disk w w.disk
  | some h =>
      have outcome := h.store.commit_cases (A := A) (P := P) w.disk state nonce storage
      have poisons := @ClientStateStore.commit_refused A P h.store w.disk state nonce storage
      have shape : (w.step A P (.commit id state nonce storage)).2.disk =
            (h.store.commit A P w.disk state nonce storage).2.2 ∧
          ((h.store.commit A P w.disk state nonce storage).1 ≠ .done →
            Evolves w (w.step A P (.commit id state nonce storage)).2 none) ∧
          ((h.store.commit A P w.disk state nonce storage).1 = .done →
            (w.step A P (.commit id state nonce storage)).2.handles = w.handles.set id
              (some { h with store := (h.store.commit A P w.disk state nonce storage).2.1 })) := by
        simp only [step, commit, held]
        generalize h.store.commit A P w.disk state nonce storage = result at poisons ⊢
        obtain ⟨verdict, store, disk⟩ := result
        cases verdict with
        | done => exact ⟨rfl, by simp, fun _ => rfl⟩
        | refused e =>
            refine ⟨rfl, fun _ => ?_, by simp⟩
            obtain rfl : store = { h.store with poisoned := true } := poisons rfl
            exact evolves_poison w disk held
        | died => exact ⟨rfl, fun _ => evolves_kill w disk h.process, by simp⟩
      obtain ⟨disk, unknown, known⟩ := shape
      obtain ⟨same, refused⟩ | ⟨candidate, usable, prepared, applied, renewed⟩ := outcome
      · exact idle_effect (disk.trans same) (unknown refused)
      · have listed := store_of_handle held
        rw [← disk] at applied
        have taken := effect_of_ne (commitIn_ne (prepareCommit_spec prepared).2.1 applied)
        rw [taken]
        simp only [sealing, listed, usable, prepared, Bool.false_eq_true, if_false]
        refine .committed listed usable prepared applied ?_
        by_cases done : (h.store.commit A P w.disk state nonce storage).1 = .done
        · have handles := known done
          rw [renewed done] at handles
          have evolves := evolves_renew w (w.step A P (.commit id state nonce storage)).2.disk held
            usable candidate
          rw [← handles] at evolves
          exact evolves
        · exact (unknown done).mono _

/-- What a step does to the world is one of the listed effects. -/
theorem step_effect (A : Aead) (P : Primitives) (w : World) (input : Input) :
    Effect A P w input (w.effect A P input) (w.step A P input).2 := by
  cases input with
  | create process protector seen state dek nonce storage => exact create_effect
  | openStore process protector storage => exact openStore_effect
  | commit id state nonce storage => exact commit_effect
  | drop id => exact idle_effect rfl (evolves_drop w id)
  | crash process => exact idle_effect rfl (evolves_kill w w.disk process)
  | tamper image =>
      have nothing : w.effect A P (.tamper image) = none := by
        simp only [effect, sealing, ite_self]
      rw [nothing]
      exact .tampered rfl (evolves_disk w image)

/-- A successful open hands out what it found in the file. -/
theorem openStore_opened {process : Nat} {protector : StateKeyProtector} {storage : Storage}
    (opened : (w.step A P (.openStore process protector storage)).1 = .opened id) :
    ∃ cached, openIn A P w.disk protector = .ok cached ∧
      (w.step A P (.openStore process protector storage)).2.store id =
        some ⟨protector, cached, false⟩ := by
  cases found : openIn A P w.disk protector with
  | error e => cases storage <;> simp [step, openStore, found] at opened
  | ok cached =>
      cases storage with
      | sound =>
          simp only [step, openStore, found, add, StoreReply.opened.injEq] at opened ⊢
          subst opened
          refine ⟨cached, rfl, ?_⟩
          simp only [store, handle_append, if_true, Option.map_some]
      | fails => simp [step, openStore, found] at opened
      | commitError applied => simp [step, openStore, found] at opened
      | crash applied => simp [step, openStore] at opened

/-- A commit that returns an error leaves its handle poisoned. -/
theorem commit_failed {e : LabError}
    (failed : (w.step A P (.commit id state nonce storage)).1 = .failed e) :
    ∃ store, (w.step A P (.commit id state nonce storage)).2.store id = some store ∧
      store.poisoned = true := by
  cases held : w.handle id with
  | none => simp [step, commit, held] at failed
  | some h =>
      have poisons := @ClientStateStore.commit_refused A P h.store w.disk state nonce storage
      have inside := handle_lt held
      simp only [step, commit, held] at failed ⊢
      generalize h.store.commit A P w.disk state nonce storage = result at poisons failed ⊢
      obtain ⟨verdict, after, disk⟩ := result
      cases verdict with
      | done => cases failed
      | died => cases failed
      | refused e =>
          refine ⟨after, ?_, ?_⟩
          · simp only [store, handle_set, true_and, inside, if_true, Option.map_some]
          · exact congrArg ClientStateStore.poisoned (poisons rfl)

/-- A commit that returns success has replaced the row and the cache. -/
theorem commit_committed
    (done : (w.step A P (.commit id state nonce storage)).1 = .committed) :
    ∃ store candidate, w.store id = some store ∧ store.poisoned = false ∧
      prepareCommit A P store.cached state nonce = .ok candidate ∧
      commitIn w.disk store.cached candidate =
        .ok (w.step A P (.commit id state nonce storage)).2.disk ∧
      (w.step A P (.commit id state nonce storage)).2.store id =
        some { store with cached := candidate } := by
  cases held : w.handle id with
  | none => simp [step, commit, held] at done
  | some h =>
      have outcome := h.store.commit_cases (A := A) (P := P) w.disk state nonce storage
      have inside := handle_lt held
      have listed := store_of_handle held
      simp only [step, commit, held] at done ⊢
      generalize h.store.commit A P w.disk state nonce storage = result at outcome done ⊢
      obtain ⟨verdict, after, disk⟩ := result
      cases verdict with
      | refused e => cases done
      | died => cases done
      | done =>
          obtain ⟨_, unknown⟩ | ⟨candidate, usable, prepared, applied, renewed⟩ := outcome
          · exact absurd rfl unknown
          · refine ⟨h.store, candidate, listed, usable, prepared, applied, ?_⟩
            simp only [store, handle_set, true_and, inside, if_true, Option.map_some]
            exact congrArg some (renewed rfl)

end Steps

end World

end SecureMessenger
