import SecureMessenger.Persistence.Versions

/-!
# What old contents do that are put back

The store with an intruder who puts old contents of the file back answers as `Versions`
does. Every version is sealed under a nonce of its own, so a row stands for one version
even if two branches have reached the same generation with the same text; comparing all
columns of the cached row is therefore comparing versions.

The cipher is assumed to undo itself and to add its tag only, and the platform to wrap
and unwrap the keys of the profile. That an old file is accepted is part of the result:
nothing in it is false, so nothing can refuse it.
-/

namespace SecureMessenger

open Machine Fallible Envelope

variable {A : Aead} {P : Primitives}

/-- A platform that serves the store: it knows the profile, wraps every key within the
bounds of the table and unwraps what it wrapped. -/
structure StateKeyProtector.Serves (protector : StateKeyProtector) (binding : ProfileBinding) :
    Prop where
  expected : protector.expectedBinding = .ok binding
  wraps : ∀ dek, ∃ wrapped, protector.wrapDek dek = .ok wrapped ∧ 1 ≤ wrapped.length ∧
    wrapped.length ≤ 8192
  unwraps : protector.Unwraps

section Failures

variable {protector : StateKeyProtector} {binding : ProfileBinding}

/-! The errors of the store are coarse: whatever goes wrong, the caller is told the same. -/

theorem fill_failsOnly {α : Type} (bytes : Option α) : FailsOnly .storage (fill bytes) := by
  cases bytes with
  | none => exact .refl
  | some bytes => exact .ok bytes

theorem toI64_failsOnly (n : UInt64) : FailsOnly .storage (toI64 n) := by
  unfold toI64
  split
  · exact .ok _
  · exact .refl

theorem sealEnvelope_failsOnly (generation : UInt64) (wrappedDek : Bytes) (dek : Dek)
    (nonce : StateNonce) (plaintext : Bytes) :
    FailsOnly .storage
      (sealEnvelope A P binding generation wrappedDek dek nonce plaintext) := by
  unfold sealEnvelope
  refine .bind (.reject _) fun _ _ => ?_
  rw [aad_eq, ok_bind]
  split
  · exact .refl
  · exact .bind (.reject _) fun _ _ => .ok _

theorem StateDb.validateSchema_failsOnly (db : StateDb) : FailsOnly .storage db.validateSchema :=
  .bind (.reject _) fun _ _ => .bind (.reject _) fun _ _ => .bind (.reject _) fun _ _ =>
    .bind (.reject _) fun _ _ => .bind (.reject _) fun _ _ => .bind (.reject _) fun _ _ => .reject _

theorem prepareCommit_failsOnly (cached : StateCache) (state : Bytes) (nonce : Option StateNonce) :
    FailsOnly .storage (prepareCommit A P cached state nonce) :=
  .bind (.reject _) fun _ _ => .bind (fill_failsOnly _) fun _ _ =>
    .bind (sealEnvelope_failsOnly _ _ _ _ _) fun _ _ => .bind (.reject _) fun _ _ => .ok _

theorem commitIn_failsOnly (db : StateDb) (cached candidate : StateCache) :
    FailsOnly .storage (commitIn db cached candidate) :=
  .bind (toI64_failsOnly _) fun _ _ => .bind (toI64_failsOnly _) fun _ _ =>
    .bind db.validateSchema_failsOnly fun _ _ =>
      .bind (.bind (.reject _) fun _ _ => .ok _) fun _ _ => .bind (.reject _) fun _ _ => .ok _

theorem prepareCreate_failsOnly (serves : protector.Serves binding) (seen : StateDb)
    (state : Bytes) (dek : Option Dek) (nonce : Option StateNonce) :
    FailsOnly .storage (prepareCreate A P protector seen state dek nonce) := by
  unfold prepareCreate
  rw [serves.expected, ok_bind]
  refine .bind (.reject _) fun _ _ => .bind (fill_failsOnly _) fun dek _ => ?_
  obtain ⟨wrapped, wraps, _⟩ := serves.wraps dek
  rw [wraps, ok_bind]
  exact .bind (.reject _) fun _ _ => .bind (fill_failsOnly _) fun _ _ =>
    .bind (sealEnvelope_failsOnly _ _ _ _ _) fun _ _ => .bind (.reject _) fun _ _ => .ok _

/-- A creation finds an empty file or fails. -/
theorem createIn_of_schema {db : StateDb} (schema : db.HasSchema) (cached : StateCache) :
    createIn db cached = .error .storage := by
  have occupied : db.validateEmptyDatabase = .error .storage :=
    FailsOnly.eq_error (.reject _) fun _ => schema.not_empty
  rw [createIn, occupied, error_bind]

end Failures

section Preparing

variable {protector : StateKeyProtector} {binding : ProfileBinding} {seen : StateDb}
variable {state : Bytes} {dek : Option Dek} {nonce : Option StateNonce} {cached : StateCache}

/-- A creation seals under the nonce it drew. -/
theorem prepareCreate_nonce
    (prepared : prepareCreate A P protector seen state dek nonce = .ok cached) :
    nonce = some cached.nonce := by
  simp only [prepareCreate, bind_eq_ok, fill_eq_ok, Except.ok.injEq] at prepared
  obtain ⟨_, _, _, _, _, _, _, _, _, _, _, drawn, _, _, _, _, rfl⟩ := prepared
  exact drawn

/-- When a creation can be prepared on a platform that serves. -/
theorem prepareCreate_eq (tagged : A.Tagged) (serves : protector.Serves binding) (seen : StateDb)
    (state : Bytes) (dek : Option Dek) (nonce : Option StateNonce) :
    if Versions.ready seen state dek nonce then
      ∃ cached, prepareCreate A P protector seen state dek nonce = .ok cached
    else prepareCreate A P protector seen state dek nonce = .error .storage := by
  split
  · next ready =>
    simp only [Versions.ready, decide_eq_true_eq, Option.isSome_iff_exists] at ready
    obtain ⟨vacant, ⟨dek, rfl⟩, ⟨nonce, rfl⟩, short⟩ := ready
    obtain ⟨wrapped, wraps, bounds⟩ := serves.wraps dek
    obtain ⟨cached, prepared⟩ : ∃ cached,
        prepareCreate A P protector .empty state (some dek) (some nonce) = .ok cached :=
      (prepareCreate_iff tagged serves.expected wraps).mpr ⟨short, bounds⟩
    refine ⟨cached, ?_⟩
    cases empty : seen.validateEmptyDatabase with
    | error e => rw [empty] at vacant; cases vacant
    | ok u =>
        rw [prepareCreate, empty]
        exact prepared
  · next unready =>
    refine (prepareCreate_failsOnly serves seen state dek nonce).eq_error ?_
    intro cached prepared
    obtain ⟨sealed, _, rfl, _⟩ := prepareCreate_spec prepared
    have drawn := prepareCreate_nonce prepared
    have short := (validateHeader_eq_ok.mp sealed.header).2.2.2.2
    simp only [prepareCreate, bind_eq_ok, fill_eq_ok] at prepared
    obtain ⟨_, _, _, vacant, _, key, _⟩ := prepared
    apply unready
    simp only [Versions.ready, vacant, key, drawn, short]
    rfl

/-- When a commit can be prepared. -/
theorem prepareCommit_eq (tagged : A.Tagged) (checks : cached.row.checks = true) (state : Bytes)
    (nonce : Option StateNonce) :
    if nonce.isSome ∧ state.length ≤ maxPlaintextBytes ∧ cached.generation.toNat < 2 ^ 63 - 1 then
      ∃ candidate, prepareCommit A P cached state nonce = .ok candidate
    else prepareCommit A P cached state nonce = .error .storage := by
  split
  · next ready =>
    obtain ⟨drawn, bounds⟩ := ready
    obtain ⟨nonce, rfl⟩ := Option.isSome_iff_exists.mp drawn
    exact (prepareCommit_iff tagged checks).mpr bounds
  · next unready =>
    refine (prepareCommit_failsOnly cached state nonce).eq_error ?_
    intro candidate prepared
    obtain ⟨_, _, _, rfl⟩ := prepareCommit_spec prepared
    exact unready ⟨rfl, (prepareCommit_iff tagged checks).mp ⟨candidate, prepared⟩⟩

end Preparing

namespace Storage

variable (storage : Storage) (disk : StateDb)

theorem transact_ok (next : StateDb) :
    storage.transact disk (.ok next) =
      ((storage.settle true).1, if (storage.settle true).2 then next else disk) := by
  cases storage <;> rfl

theorem transact_error :
    storage.transact disk (.error .storage) = ((storage.settle false).1, disk) := by
  cases storage <;> rfl

theorem settle_false : (storage.settle false).2 = false := by
  cases storage <;> rfl

/-- Success is reported of a transaction that took effect. -/
theorem settle_done {body : Bool} (done : (storage.settle body).1 = .done) :
    (storage.settle body).2 = true := by
  cases storage <;> cases body <;> first | rfl | cases done

end Storage

namespace ClientStateStore

/-- What a usable handle says about its state. -/
def read (store : ClientStateStore) : Except LabError (Nat × Bytes) := do
  let generation ← store.generation
  let state ← store.state
  .ok (generation.toNat, state)

theorem read_eq (store : ClientStateStore) :
    store.read = if store.poisoned then .error .storage
      else .ok (store.cached.generation.toNat, store.cached.state) := by
  obtain ⟨protector, cached, poisoned⟩ := store
  cases poisoned <;> rfl

/-- What a handle makes of the verdict on its transaction. -/
def conclude (store : ClientStateStore) (candidate : StateCache) : Verdict → ClientStateStore
  | .done => { store with cached := candidate }
  | .refused _ => { store with poisoned := true }
  | .died => store

theorem commit_of_verdict {store : ClientStateStore} {disk disk' : StateDb} {state : Bytes}
    {nonce : Option StateNonce} {storage : Storage} {candidate : StateCache} {verdict : Verdict}
    (usable : store.poisoned = false)
    (prepared : prepareCommit A P store.cached state nonce = .ok candidate)
    (settled : storage.transact disk (commitIn disk store.cached candidate) = (verdict, disk')) :
    store.commit A P disk state nonce storage =
      (verdict, store.conclude candidate verdict, disk') := by
  obtain ⟨protector, cached, poisoned⟩ := store
  cases usable
  simp only [commit, commitInner, prepared, settled]
  cases verdict <;> rfl

end ClientStateStore

/-- The update of a row that is there. -/
theorem StateDb.overwrite_founded (old : StateCache) {new : StateCache}
    (checks : new.row.checks = true) :
    (StateDb.founded [old.row]).overwrite new.row = .founded [new.row] := by
  have update : (StateDb.founded [old.row]).updateRows (fun row => row.slot = slot)
      (fun _ => new.row) = .ok (1, .founded [new.row]) := by
    rw [updateRows, rejectIf_of_not (by simp [checks])]
    rfl
  rw [overwrite, update]

theorem World.overwrite_founded (w : World) (c : StateCache) :
    w.overwrite (.founded [c.row]) = { w with disk := w.disk.overwrite c.row } := rfl

/-- Lists that are related element by element, at one place or else at their defaults. -/
theorem getD_of_forall₂ {α β : Type} {R : α → β → Prop} {xs : List α} {ys : List β} {a : α} {b : β}
    (related : List.Forall₂ R xs ys) (default : R a b) (place : Nat) :
    R (xs[place]?.getD a) (ys[place]?.getD b) := by
  induction related generalizing place with
  | nil => exact default
  | cons first _ ih =>
      cases place with
      | zero => exact first
      | succ place => exact ih place

namespace Versions

variable {protector : StateKeyProtector} {binding : ProfileBinding}
variable {snapshots : List StateCache} {c : StateCache}

/-- A snapshot of the profile. -/
structure Kept (A : Aead) (P : Primitives) (protector : StateKeyProtector)
    (binding : ProfileBinding) (c : StateCache) : Prop where
  sealed : c.Sealed A P
  binding : c.binding = binding
  wrapped : protector.wrapDek c.dek = .ok c.wrappedDek

theorem Kept.succeeds {next : StateCache} (kept : Kept A P protector binding c)
    (succeeds : next.Succeeds c) (sealed : next.Sealed A P) : Kept A P protector binding next where
  sealed := sealed
  binding := succeeds.binding.trans kept.binding
  wrapped := by rw [succeeds.dek, succeeds.wrappedDek, kept.wrapped]

/-- The file of a version. -/
def Shows (snapshots : List StateCache) : Option Nat → StateDb → Prop
  | none, disk => disk = .empty
  | some version, disk => ∃ c, snapshots[version]? = some c ∧ disk = .founded [c.row]

/-- A handle with the reader it stands for. -/
structure Follows (snapshots : List StateCache) (h : Handle) (reader : Reader) : Prop where
  process : h.process = reader.process
  poisoned : h.store.poisoned = reader.poisoned
  cached : snapshots[reader.version]? = some h.store.cached

theorem Shows.append {version : Option Nat} {disk : StateDb} (shows : Shows snapshots version disk)
    (added : List StateCache) : Shows (snapshots ++ added) version disk := by
  cases version with
  | none => exact shows
  | some version =>
      obtain ⟨c', found, rfl⟩ := shows
      exact ⟨c', List.getElem?_append_left (List.getElem?_eq_some_iff.mp found).1 ▸ found, rfl⟩

theorem Follows.append {h : Handle} {reader : Reader} (follows : Follows snapshots h reader)
    (added : List StateCache) : Follows (snapshots ++ added) h reader where
  process := follows.process
  poisoned := follows.poisoned
  cached := List.getElem?_append_left (List.getElem?_eq_some_iff.mp follows.cached).1 ▸
    follows.cached

/-- The world and its copies, with the versions they stand for. -/
structure Mirrors (A : Aead) (P : Primitives) (protector : StateKeyProtector)
    (binding : ProfileBinding) (snapshots : List StateCache) (w : World) (copies : List StateDb)
    (v : Versions) : Prop where
  kept : ∀ c ∈ snapshots, Kept A P protector binding c
  versions : v.versions.map (fun version => (version.generation, version.state)) =
    snapshots.map (fun c => (c.generation.toNat, c.state))
  nonces : (snapshots.map StateCache.nonce).Nodup
  branched : v.Branched
  file : Shows snapshots v.current w.disk
  copies : List.Forall₂ (Shows snapshots) v.copies copies
  handles : Slots.Related (Follows snapshots) w.handles v.handles

namespace Mirrors

variable {w : World} {copies : List StateDb} {v : Versions}

theorem initial : Mirrors A P protector binding [] .initial [.empty] .initial where
  kept := by simp
  versions := rfl
  nonces := List.nodup_nil
  branched := by
    intro i version found
    cases found
  file := rfl
  copies := .cons rfl .nil
  handles := .nil

theorem length_eq (mirrors : Mirrors A P protector binding snapshots w copies v) :
    v.versions.length = snapshots.length := by
  simpa using congrArg List.length mirrors.versions

/-- The place of the next version is that of the next snapshot. -/
theorem newest (mirrors : Mirrors A P protector binding snapshots w copies v) (c : StateCache) :
    (snapshots ++ [c])[v.versions.length]? = some c := by
  rw [mirrors.length_eq, List.getElem?_concat_length]

theorem version (mirrors : Mirrors A P protector binding snapshots w copies v) {i : Nat}
    (found : snapshots[i]? = some c) :
    ∃ version, v.versions[i]? = some version ∧ version.generation = c.generation.toNat ∧
      version.state = c.state := by
  have same := congrArg (fun list => list[i]?) mirrors.versions
  simp only [List.getElem?_map, found, Option.map_some, Option.map_eq_some_iff,
    Prod.mk.injEq] at same
  exact same

theorem generation (mirrors : Mirrors A P protector binding snapshots w copies v) {i : Nat}
    (found : snapshots[i]? = some c) : v.generation i = c.generation.toNat := by
  obtain ⟨version, listed, number, _⟩ := mirrors.version found
  rw [Versions.generation, listed, Option.map_some, Option.getD_some, number]

theorem disk_of_none (mirrors : Mirrors A P protector binding snapshots w copies v)
    (shown : v.current = none) : w.disk = .empty := by
  have file := mirrors.file
  rw [shown] at file
  exact file

theorem disk_of_some (mirrors : Mirrors A P protector binding snapshots w copies v) {i : Nat}
    (shown : v.current = some i) : ∃ c, snapshots[i]? = some c ∧ w.disk = .founded [c.row] := by
  have file := mirrors.file
  rw [shown] at file
  exact file

/-- A row stands for one version: nonces are not drawn twice. -/
theorem eq_of_row (mirrors : Mirrors A P protector binding snapshots w copies v) {i j : Nat}
    {c' : StateCache} (found : snapshots[i]? = some c) (found' : snapshots[j]? = some c')
    (same : c.row = c'.row) : i = j := by
  obtain ⟨_, _, _, nonce, _⟩ := StateCache.eq_of_row same
  have inside := (List.getElem?_eq_some_iff.mp found).1
  refine (List.getElem?_inj (by simpa using inside) mirrors.nonces).mp ?_
  rw [List.getElem?_map, List.getElem?_map, found, found', Option.map_some, Option.map_some, nonce]

/-- A handle reads the version it stands on. -/
theorem reads (mirrors : Mirrors A P protector binding snapshots w copies v) (id : Nat) :
    Option.Rel (fun store reader => store.read = v.read reader) (w.store id)
      (Slots.lookup v.handles id) := by
  have both := mirrors.handles.lookup id
  have place : w.store id = (Slots.lookup w.handles id).map Handle.store := rfl
  rw [place]
  generalize Slots.lookup w.handles id = held at both ⊢
  generalize Slots.lookup v.handles id = reader at both ⊢
  cases both with
  | none => exact .none
  | @some h reader follows =>
      refine .some ?_
      obtain ⟨version, listed, number, state⟩ := mirrors.version follows.cached
      rw [ClientStateStore.read_eq, Versions.read, listed, ← follows.poisoned, ← number, ← state]
      cases h.store.poisoned <;> rfl

/-- The handles change and nothing else does. -/
theorem withHandles (mirrors : Mirrors A P protector binding snapshots w copies v)
    {hs : List (Option Handle)} {rs : List (Option Reader)}
    (handles : Slots.Related (Follows snapshots) hs rs) :
    Mirrors A P protector binding snapshots { w with handles := hs } copies
      { v with handles := rs } :=
  { mirrors with handles }

theorem kill (mirrors : Mirrors A P protector binding snapshots w copies v) (process : Nat) :
    Mirrors A P protector binding snapshots (w.kill process) copies (v.kill process) :=
  mirrors.withHandles (mirrors.handles.keep fun follows => by rw [follows.process])

theorem seat (mirrors : Mirrors A P protector binding snapshots w copies v) (id : Nat)
    {held : Option Handle} {reader : Option Reader}
    (both : Option.Rel (Follows snapshots) held reader) :
    Mirrors A P protector binding snapshots ⟨w.disk, w.handles.set id held⟩ copies
      (v.seat id reader) :=
  mirrors.withHandles (mirrors.handles.set id both)

theorem add (mirrors : Mirrors A P protector binding snapshots w copies v) {h : Handle}
    {reader : Reader} (follows : Follows snapshots h reader) :
    (w.add h).1 = (v.add reader).1 ∧
      Mirrors A P protector binding snapshots (w.add h).2 copies (v.add reader).2 := by
  refine ⟨?_, mirrors.withHandles (mirrors.handles.add follows)⟩
  rw [World.add, Versions.add, mirrors.handles.length_eq]

/-- A new snapshot reaches the disk. -/
theorem put (mirrors : Mirrors A P protector binding snapshots w copies v)
    (kept : Kept A P protector binding c) (unused : c.nonce ∉ snapshots.map StateCache.nonce)
    {parent : Option Nat} (inside : ∀ j, parent = some j → j < v.versions.length)
    (number : c.generation.toNat = (parent.map v.generation).getD 0 + 1) :
    Mirrors A P protector binding (snapshots ++ [c]) { w with disk := .founded [c.row] } copies
      (v.put parent c.state) where
  kept := by
    intro c' member
    obtain old | new := List.mem_append.mp member
    · exact mirrors.kept c' old
    · exact List.mem_singleton.mp new ▸ kept
  versions := by
    simp only [Versions.put, List.map_append, mirrors.versions, List.map_singleton, number]
  nonces := by
    rw [List.map_append, List.map_singleton, ← List.concat_eq_append]
    exact mirrors.nonces.concat unused
  branched := mirrors.branched.put inside c.state
  file := ⟨c, mirrors.newest c, rfl⟩
  copies := mirrors.copies.imp fun _ _ shows => shows.append [c]
  handles := mirrors.handles.mono fun follows => follows.append [c]

/-- A snapshot whose transaction has settled is on the disk or is not. -/
theorem settled (mirrors : Mirrors A P protector binding snapshots w copies v)
    (kept : Kept A P protector binding c) (unused : c.nonce ∉ snapshots.map StateCache.nonce)
    {parent : Option Nat} (inside : ∀ j, parent = some j → j < v.versions.length)
    (number : c.generation.toNat = (parent.map v.generation).getD 0 + 1) (applied : Bool) :
    Mirrors A P protector binding (snapshots ++ if applied then [c] else [])
      { w with disk := if applied then .founded [c.row] else w.disk } copies
      (if applied then v.put parent c.state else v) := by
  cases applied with
  | true => exact mirrors.put kept unused inside number
  | false =>
      show Mirrors A P protector binding (snapshots ++ []) w copies v
      rw [List.append_nil]
      exact mirrors

/-- The versions follow a call that drew `nonce`. -/
def Continues (A : Aead) (P : Primitives) (protector : StateKeyProtector)
    (binding : ProfileBinding) (snapshots : List StateCache) (copies : List StateDb)
    (nonce : Option StateNonce) (concrete : StoreReply × World)
    (abstract : StoreReply × Versions) : Prop :=
  concrete.1 = abstract.1 ∧ ∃ added, (added.map StateCache.nonce).Sublist nonce.toList ∧
    Mirrors A P protector binding (snapshots ++ added) concrete.2 copies abstract.2

/-- A call that seals nothing. -/
theorem Continues.plain {nonce : Option StateNonce} {reply : StoreReply} {w' : World}
    {v' : Versions} (mirrors : Mirrors A P protector binding snapshots w' copies v') :
    Continues A P protector binding snapshots copies nonce (reply, w') (reply, v') :=
  ⟨rfl, [], List.nil_sublist _, (List.append_nil snapshots).symm ▸ mirrors⟩

section Calls

variable {process id : Nat} {state : Bytes} {storage : Storage} {seen : StateDb}
variable {dek : Option Dek} {nonce : Option StateNonce}

/-- The nonce of a settled snapshot is the one that was drawn. -/
theorem sublist_drawn (drawn : nonce = some c.nonce) (applied : Bool) :
    ((if applied then [c] else []).map StateCache.nonce).Sublist nonce.toList := by
  rw [drawn]
  cases applied with
  | true => exact List.Sublist.refl _
  | false => exact List.nil_sublist _

theorem create (mirrors : Mirrors A P protector binding snapshots w copies v) (tagged : A.Tagged)
    (serves : protector.Serves binding)
    (unused : ∀ n, nonce = some n → n ∉ snapshots.map StateCache.nonce) :
    Continues A P protector binding snapshots copies nonce
      (w.create A P process protector seen state dek nonce storage)
      (v.create process state (ready seen state dek nonce) storage) := by
  have preparing := prepareCreate_eq (P := P) tagged serves seen state dek nonce
  split at preparing
  · next ready =>
    obtain ⟨cached, prepared⟩ := preparing
    obtain ⟨sealed, first, same, expected, wraps⟩ := prepareCreate_spec prepared
    have drawn := prepareCreate_nonce prepared
    have kept : Kept A P protector binding cached :=
      ⟨sealed, Except.ok.inj (expected.symm.trans serves.expected), wraps⟩
    simp only [World.create, prepared, Versions.create, ready, if_true]
    cases shown : v.current with
    | none =>
        have vacant := mirrors.disk_of_none shown
        have number : cached.generation.toNat = ((none : Option Nat).map v.generation).getD 0 + 1 :=
          congrArg UInt64.toNat first
        have next := mirrors.settled kept (unused _ drawn) (by simp) number
          (storage.settle true).2
        have new := sublist_drawn drawn (storage.settle true).2
        have body : createIn w.disk cached = .ok (.founded [cached.row]) :=
          vacant ▸ createIn_of_sealed sealed first
        rw [same] at next
        rw [body, Storage.transact_ok, Option.isNone_none]
        -- The new root may be on the disk although its creator was not told so.
        cases verdict : (storage.settle true).1 with
        | refused e => exact ⟨rfl, _, new, next⟩
        | died => exact ⟨rfl, _, new, next.kill process⟩
        | done =>
            rw [storage.settle_done verdict] at next new ⊢
            have follows : Follows (snapshots ++ [cached]) ⟨process, protector, cached, false⟩
                ⟨process, v.versions.length, false⟩ :=
              ⟨rfl, rfl, mirrors.newest cached⟩
            exact ⟨(next.add follows).1, _, new, (next.add follows).2⟩
    | some version =>
        obtain ⟨c, _, rows⟩ := mirrors.disk_of_some shown
        have body : createIn w.disk cached = .error .storage :=
          rows ▸ createIn_of_schema ⟨rfl, rfl, rfl, rfl, rfl, rfl, rfl, rfl, rfl⟩ cached
        rw [body, Storage.transact_error, Option.isNone_some, storage.settle_false]
        cases verdict : (storage.settle false).1 with
        | refused e => exact .plain mirrors
        | died => exact .plain (mirrors.kill process)
        | done => exact absurd (storage.settle_done verdict) (by simp [storage.settle_false])
  · next unready =>
    simp only [World.create, preparing, Versions.create, unready]
    exact .plain mirrors

theorem openStore (mirrors : Mirrors A P protector binding snapshots w copies v)
    (correct : A.Correct) (serves : protector.Serves binding) :
    Continues A P protector binding snapshots copies none
      (w.openStore A P process protector storage) (v.openStore process storage) := by
  cases shown : v.current with
  | none =>
      have vacant := mirrors.disk_of_none shown
      have nothing : openIn A P w.disk protector = .error .storage := by
        rw [openIn, serves.expected, vacant]
        rfl
      cases storage <;> simp only [World.openStore, nothing, Versions.openStore, shown]
      all_goals first | exact .plain mirrors | exact .plain (mirrors.kill process)
  | some version =>
      obtain ⟨c, found, rows⟩ := mirrors.disk_of_some shown
      have kept := mirrors.kept c (List.mem_of_getElem? found)
      have opens : openIn A P w.disk protector = .ok c := by
        rw [rows]
        exact StateCache.openIn_of_row rfl (StateDb.validateSchema_founded kept.sealed.checks)
          (kept.binding ▸ serves.expected) (serves.unwraps _ _ kept.wrapped)
          (kept.sealed.opens correct)
      have follows : Follows snapshots ⟨process, protector, c, false⟩ ⟨process, version, false⟩ :=
        ⟨rfl, rfl, found⟩
      have added := mirrors.add follows
      cases storage <;> simp only [World.openStore, opens, Versions.openStore, shown]
      · exact ⟨added.1, [], List.nil_sublist _, (List.append_nil snapshots).symm ▸ added.2⟩
      all_goals first | exact .plain mirrors | exact .plain (mirrors.kill process)

/-- A commit goes through exactly while the file shows the version of the handle. -/
theorem commitIn_eq (mirrors : Mirrors A P protector binding snapshots w copies v) {i : Nat}
    {cached candidate : StateCache} (found : snapshots[i]? = some cached)
    (succeeds : candidate.Succeeds cached) (sealed : candidate.Sealed A P) :
    commitIn w.disk cached candidate =
      if v.current = some i then .ok (.founded [candidate.row]) else .error .storage := by
  split
  · next shown =>
    obtain ⟨c, found', rows⟩ := mirrors.disk_of_some shown
    cases found.symm.trans found'
    have valid := StateDb.validateSchema_founded
      (mirrors.kept cached (List.mem_of_getElem? found)).sealed.checks
    rw [rows]
    exact commitIn_of_rows valid rfl succeeds sealed
  · next elsewhere =>
    refine (commitIn_failsOnly w.disk cached candidate).eq_error ?_
    intro db applied
    obtain ⟨schema, rows, _⟩ := commitIn_spec applied
    cases shown : v.current with
    | none =>
        have vacant := mirrors.disk_of_none shown
        rw [vacant] at rows
        cases rows
    | some j =>
        obtain ⟨c, found', rows'⟩ := mirrors.disk_of_some shown
        rw [rows'] at rows
        -- The comparison is of rows, but nonces make rows and versions the same thing.
        have same := mirrors.eq_of_row found' found (List.singleton_inj.mp rows)
        exact elsewhere (same ▸ shown)

/-- A usable handle of the world with the reader it stands for. -/
structure Seated (snapshots : List StateCache) (w : World) (v : Versions) (id process version : Nat)
    (store : ClientStateStore) : Prop where
  held : w.handle id = some ⟨process, store⟩
  listed : Slots.lookup v.handles id = some ⟨process, version, false⟩
  usable : store.poisoned = false
  stands : snapshots[version]? = some store.cached

section Commit

variable {version : Nat} {store : ClientStateStore} {candidate : StateCache}

theorem Seated.poisoned (seated : Seated snapshots w v id process version store) :
    Follows snapshots ⟨process, { store with poisoned := true }⟩ ⟨process, version, true⟩ :=
  ⟨rfl, rfl, seated.stands⟩

/-- The file shows the version of the handle, so the transaction goes through. -/
theorem commit_shown (mirrors : Mirrors A P protector binding snapshots w copies v)
    (seated : Seated snapshots w v id process version store)
    (unused : ∀ n, nonce = some n → n ∉ snapshots.map StateCache.nonce)
    (admissible : nonce.isSome ∧ state.length ≤ maxPlaintextBytes ∧
      v.generation version < 2 ^ 63 - 1)
    (prepared : prepareCommit A P store.cached state nonce = .ok candidate)
    (shown : v.current = some version) :
    Continues A P protector binding snapshots copies nonce
      (w.commit A P id state nonce storage) (v.commit id state nonce.isSome storage) := by
  obtain ⟨sealed, succeeds, rfl, drawn⟩ := prepareCommit_spec prepared
  have kept := mirrors.kept store.cached (List.mem_of_getElem? seated.stands)
  have settled : storage.transact w.disk (commitIn w.disk store.cached candidate) =
      ((storage.settle true).1,
        if (storage.settle true).2 then .founded [candidate.row] else w.disk) := by
    rw [mirrors.commitIn_eq seated.stands succeeds sealed, if_pos shown, Storage.transact_ok]
  have number : candidate.generation.toNat = ((some version).map v.generation).getD 0 + 1 := by
    rw [succeeds.generation, ← mirrors.generation seated.stands]
    rfl
  have inside : ∀ j, some version = some j → j < v.versions.length := by
    rintro _ ⟨rfl⟩
    rw [mirrors.length_eq]
    exact (List.getElem?_eq_some_iff.mp seated.stands).1
  have next := mirrors.settled (kept.succeeds succeeds sealed) (unused _ drawn) inside number
    (storage.settle true).2
  have new := sublist_drawn drawn (storage.settle true).2
  simp only [World.commit, seated.held, Versions.commit, seated.listed,
    ClientStateStore.commit_of_verdict seated.usable prepared settled]
  rw [if_neg Bool.false_ne_true, if_pos admissible, decide_eq_true shown]
  -- A handle that was told of a failure is poisoned, also if its version has come to be.
  cases verdict : (storage.settle true).1 with
  | refused e => exact ⟨rfl, _, new, next.seat id (.some (seated.poisoned.append _))⟩
  | died => exact ⟨rfl, _, new, next.kill process⟩
  | done =>
      rw [storage.settle_done verdict] at next new ⊢
      have follows : Follows (snapshots ++ [candidate])
          ⟨process, { store with cached := candidate }⟩ ⟨process, v.versions.length, false⟩ :=
        ⟨rfl, seated.usable, mirrors.newest candidate⟩
      exact ⟨rfl, _, new, next.seat id (.some follows)⟩

/-- The file shows nothing or another version, so the comparison fails. -/
theorem commit_elsewhere (mirrors : Mirrors A P protector binding snapshots w copies v)
    (seated : Seated snapshots w v id process version store)
    (admissible : nonce.isSome ∧ state.length ≤ maxPlaintextBytes ∧
      v.generation version < 2 ^ 63 - 1)
    (prepared : prepareCommit A P store.cached state nonce = .ok candidate)
    (elsewhere : v.current ≠ some version) :
    Continues A P protector binding snapshots copies nonce
      (w.commit A P id state nonce storage) (v.commit id state nonce.isSome storage) := by
  obtain ⟨sealed, succeeds, _, _⟩ := prepareCommit_spec prepared
  have settled : storage.transact w.disk (commitIn w.disk store.cached candidate) =
      ((storage.settle false).1, w.disk) := by
    rw [mirrors.commitIn_eq seated.stands succeeds sealed, if_neg elsewhere,
      Storage.transact_error]
  simp only [World.commit, seated.held, Versions.commit, seated.listed,
    ClientStateStore.commit_of_verdict seated.usable prepared settled]
  rw [if_neg Bool.false_ne_true, if_pos admissible, decide_eq_false elsewhere,
    storage.settle_false]
  cases verdict : (storage.settle false).1 with
  | refused e => exact .plain (mirrors.seat id (.some seated.poisoned))
  | died => exact .plain (mirrors.kill process)
  | done => exact absurd (storage.settle_done verdict) (by simp [storage.settle_false])

theorem commit (mirrors : Mirrors A P protector binding snapshots w copies v) (tagged : A.Tagged)
    (unused : ∀ n, nonce = some n → n ∉ snapshots.map StateCache.nonce) :
    Continues A P protector binding snapshots copies nonce
      (w.commit A P id state nonce storage) (v.commit id state nonce.isSome storage) := by
  have place : w.handle id = Slots.lookup w.handles id := rfl
  cases held : Slots.lookup w.handles id with
  | none =>
      simp only [World.commit, place, held, Versions.commit, mirrors.handles.lookup_none held]
      exact .plain mirrors
  | some h =>
      obtain ⟨⟨process, version, poisoned⟩, listed, follows⟩ := mirrors.handles.lookup_some held
      obtain ⟨process, store⟩ := h
      obtain ⟨rfl, rfl, stands⟩ := follows
      cases usable : store.poisoned with
      | true =>
          simp only [World.commit, place, held, Versions.commit, listed, ClientStateStore.commit,
            usable, if_true, Slots.set_lookup held]
          exact .plain mirrors
      | false =>
          have seated : Seated snapshots w v id process version store :=
            ⟨place.trans held, usable ▸ listed, usable, stands⟩
          have kept := mirrors.kept store.cached (List.mem_of_getElem? stands)
          have preparing := prepareCommit_eq (P := P) tagged kept.sealed.checks state nonce
          rw [← mirrors.generation stands] at preparing
          split at preparing
          · next admissible =>
            obtain ⟨candidate, prepared⟩ := preparing
            by_cases shown : v.current = some version
            · exact mirrors.commit_shown seated unused admissible prepared shown
            · exact mirrors.commit_elsewhere seated admissible prepared shown
          · next inadmissible =>
            simp only [World.commit, seated.held, Versions.commit, seated.listed,
              ClientStateStore.commit_of_unprepared usable preparing]
            rw [if_neg Bool.false_ne_true, if_neg inadmissible]
            exact .plain (mirrors.seat id (.some seated.poisoned))

end Commit

end Calls

/-- The row of some version is put back, if there is a row. -/
theorem overwrite (mirrors : Mirrors A P protector binding snapshots w copies v)
    {version : Option Nat} {copy : StateDb} (shows : Shows snapshots version copy) :
    Mirrors A P protector binding snapshots (w.overwrite copy) copies (v.overwrite version) := by
  cases version with
  | none =>
      obtain rfl : copy = .empty := shows
      exact mirrors
  | some version =>
      obtain ⟨c, found, rfl⟩ := shows
      cases shown : v.current with
      | none =>
          have unwritten : w.disk.overwrite c.row = w.disk := by
            rw [mirrors.disk_of_none shown]
            rfl
          simp only [World.overwrite_founded, unwritten, Versions.overwrite, shown]
          exact mirrors
      | some i =>
          obtain ⟨c', _, rows⟩ := mirrors.disk_of_some shown
          have checks := (mirrors.kept c (List.mem_of_getElem? found)).sealed.checks
          have written : w.disk.overwrite c.row = .founded [c.row] :=
            rows ▸ StateDb.overwrite_founded c' checks
          simp only [World.overwrite_founded, written, Versions.overwrite, shown]
          exact { mirrors with file := ⟨c, found, rfl⟩ }

/-- The file of some version is put back, and all handles are closed. -/
theorem exchange (mirrors : Mirrors A P protector binding snapshots w copies v)
    {version : Option Nat} {copy : StateDb} (shows : Shows snapshots version copy) :
    Mirrors A P protector binding snapshots (w.exchange copy) copies (v.exchange version) :=
  { mirrors with
    file := shows
    handles := mirrors.handles.close }

theorem copy (mirrors : Mirrors A P protector binding snapshots w copies v) :
    Mirrors A P protector binding snapshots w (copies ++ [w.disk])
      { v with copies := v.copies ++ [v.current] } :=
  { mirrors with copies := List.rel_append mirrors.copies (.cons mirrors.file .nil) }

theorem move {vault : Vault} {move : Move}
    (mirrors : Mirrors A P protector binding snapshots vault.world vault.copies v)
    (tagged : A.Tagged) (correct : A.Correct) (serves : protector.Serves binding)
    (uses : move.Uses protector)
    (unused : ∀ n, move.nonce? = some n → n ∉ snapshots.map StateCache.nonce) :
    Continues A P protector binding snapshots vault.copies move.nonce?
      (vault.move A P move) (v.move move) := by
  have copied : ∀ moment, Shows snapshots (v.copy moment) (vault.copy moment) :=
    getD_of_forall₂ mirrors.copies mirrors.file
  cases move with
  | overwrite moment => exact .plain (mirrors.overwrite (copied moment))
  | exchange moment => exact .plain (mirrors.exchange (copied moment))
  | call input =>
      obtain ⟨honest, own⟩ := uses
      cases input with
      | create process p seen state dek nonce storage =>
          obtain rfl := own p rfl
          exact mirrors.create tagged serves unused
      | openStore process p storage =>
          obtain rfl := own p rfl
          exact mirrors.openStore correct serves
      | commit id state nonce storage => exact mirrors.commit tagged unused
      | drop id => exact .plain (mirrors.seat id .none)
      | crash process => exact .plain (mirrors.kill process)
      | tamper image => cases honest

end Mirrors

/-- The store and its versions, before the moves that are still to come. -/
def Agrees (A : Aead) (P : Primitives) (protector : StateKeyProtector) (binding : ProfileBinding)
    (moves : List Move) (vault : Vault) (v : Versions) : Prop :=
  (∀ move ∈ moves, move.Uses protector) ∧ ∃ snapshots,
    Mirrors A P protector binding snapshots vault.world vault.copies v ∧
      (snapshots.map StateCache.nonce ++ moves.filterMap Move.nonce?).Nodup

theorem Agrees.step {moves : List Move} {move : Move} {vault : Vault} {v : Versions}
    (agrees : Agrees A P protector binding (move :: moves) vault v) (tagged : A.Tagged)
    (correct : A.Correct) (serves : protector.Serves binding) :
    (vault.step A P move).1 = (v.step move).1 ∧
      Agrees A P protector binding moves (vault.step A P move).2 (v.step move).2 := by
  obtain ⟨uses, snapshots, mirrors, fresh⟩ := agrees
  have drawn : (move :: moves).filterMap Move.nonce? =
      move.nonce?.toList ++ moves.filterMap Move.nonce? := by
    rw [List.filterMap_cons]
    cases move.nonce? <;> rfl
  rw [drawn] at fresh
  -- A nonce that is still to be drawn is not the nonce of a snapshot.
  obtain ⟨same, added, new, next⟩ := mirrors.move tagged correct serves (uses move (by simp)) (by
    intro n found listed
    refine List.disjoint_of_nodup_append fresh listed (List.mem_append_left _ ?_)
    rw [found]
    exact List.mem_singleton_self n)
  refine ⟨same, fun later member => uses later (List.mem_cons_of_mem _ member), _, next.copy, ?_⟩
  rw [List.map_append, List.append_assoc]
  exact fresh.sublist ((new.append_right _).append_left _)

end Versions

/-- If nonces are not drawn twice, a store whose old contents can be put back answers every
list of moves as the versions do. The versions form branches, and the handles read the
versions they stand on. -/
theorem restored_file_is_a_branch {protector : StateKeyProtector} {binding : ProfileBinding}
    (tagged : A.Tagged) (correct : A.Correct) (serves : protector.Serves binding)
    {moves : List Move} (uses : ∀ move ∈ moves, move.Uses protector)
    (fresh : (moves.filterMap Move.nonce?).Nodup) :
    trace (Vault.step A P) .initial moves = trace Versions.step .initial moves ∧
      (run Versions.step .initial moves).Branched ∧
      ∀ id, Option.Rel
        (fun store reader => store.read = (run Versions.step .initial moves).read reader)
        ((run (Vault.step A P) .initial moves).world.store id)
        (Slots.lookup (run Versions.step .initial moves).handles id) := by
  have start : Versions.Agrees A P protector binding moves .initial .initial :=
    ⟨uses, [], .initial, fresh⟩
  obtain ⟨_, snapshots, mirrors, _⟩ := run_simulates (Versions.Agrees A P protector binding)
    (fun agrees => (agrees.step tagged correct serves).2) start
  refine ⟨trace_simulates (Versions.Agrees A P protector binding)
    (fun agrees => agrees.step tagged correct serves) start, mirrors.branched, mirrors.reads⟩

theorem StateKeyProtector.symbolic_serves (binding : ProfileBinding) :
    (symbolic binding).Serves binding where
  expected := rfl
  wraps dek := by
    refine ⟨_, rfl, ?_⟩
    simp only [List.length_append, FixedBytes.length_toList]
    decide
  unwraps := symbolic_unwraps binding

namespace Branching

def protector : StateKeyProtector := .symbolic ⟨.fill 16 1, .fill 16 2⟩

/-- The row of the first moment after the creation is put back. A handle opened on it
commits another second generation, and the handle of the first branch is refused. Then the
file of the first branch is put back, and a new handle goes on from there. -/
def moves : List Move :=
  [.call (.create 0 protector .empty [7] (some (.fill 32 3)) (some (.fill 24 4)) .sound),
    .call (.commit 0 [8] (some (.fill 24 5)) .sound),
    .overwrite 1,
    .call (.openStore 1 protector .sound),
    .call (.commit 1 [9] (some (.fill 24 6)) .sound),
    .call (.commit 0 [10] (some (.fill 24 7)) .sound),
    .exchange 2,
    .call (.openStore 1 protector .sound),
    .call (.commit 2 [11] (some (.fill 24 8)) .sound)]

theorem restored_file_is_a_branch_divergent :
    (trace (Vault.step .padding .symbolic) .initial moves).map Prod.snd =
      [.opened 0, .committed, .silent, .opened 1, .committed, .failed .storage, .silent,
        .opened 2, .committed] := by
  have same : trace (Vault.step .padding .symbolic) .initial moves =
      trace Versions.step .initial moves :=
    (restored_file_is_a_branch Aead.padding_tagged Aead.padding_correct
      (StateKeyProtector.symbolic_serves ⟨.fill 16 1, .fill 16 2⟩)
      (by simp [moves, Move.Uses, Input.honest, Input.protector?, protector]) (by decide)).1
  rw [same]
  decide

end Branching

end SecureMessenger
