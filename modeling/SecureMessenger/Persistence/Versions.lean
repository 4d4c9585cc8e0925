import SecureMessenger.Library.Slots
import SecureMessenger.Persistence.Limits

/-!
# A store whose old contents are put back

Nothing in the file tells an old copy of it from the latest one, so whoever can write the
file can also put old contents back. `Vault` is the store with such an intruder, for whom
the file is copied after every move. The intruder has a connection of their own, on which
they may overwrite the row by the row of any copy; SQLite shows such a change to every handle
at its next transaction. It need not do so if the file itself is exchanged, since an open
connection may go on with pages that it has read before. The intruder may therefore exchange
the file for any copy, each with its journal, only while nobody has it open.

`Versions` says what the store is then. Every snapshot that reaches the disk is a
version, made from nothing or from another version. The file shows one version. A
handle reads the version it stands on, and it commits while the file shows this very
version: the new version is then made from it. A version that is put back is shown again,
so versions branch, but no handle ever gets from one branch to another.
-/

namespace SecureMessenger

/-- A move of the store or of the intruder. -/
inductive Move
  | call (input : Input)
  | overwrite (moment : Nat)
  | exchange (moment : Nat)

namespace Move

/-- The nonce a move draws. -/
def nonce? : Move → Option StateNonce
  | call (.create _ _ _ _ _ nonce _) => nonce
  | call (.commit _ _ nonce _) => nonce
  | _ => none

/-- The store is called on one platform, and the intruder writes old contents only. -/
def Uses (protector : StateKeyProtector) : Move → Prop
  | call input => input.honest = true ∧ ∀ p, input.protector? = some p → p = protector
  | overwrite _ | exchange _ => True

end Move

/-- An `UPDATE` of all columns of the row. A file without a row has nothing to update, and
a row that the constraints refuse is not written. -/
def StateDb.overwrite (db : StateDb) (row : StateRow) : StateDb :=
  match db.updateRows (fun old => old.slot = slot) (fun _ => row) with
  | .ok (_, db) => db
  | .error _ => db

namespace World

/-- Another connection puts the row of a copy back, if the copy has one. -/
def overwrite (w : World) (copy : StateDb) : World :=
  match copy.rows.head? with
  | some row => { w with disk := w.disk.overwrite row }
  | none => w

/-- All handles are closed, and the file is exchanged for a copy. -/
def exchange (w : World) (copy : StateDb) : World := ⟨copy, w.handles.map fun _ => none⟩

end World

/-- A store with the copies of its file, one for every moment so far. -/
structure Vault where
  world : World
  copies : List StateDb

namespace Vault

def initial : Vault := ⟨.initial, [StateDb.empty]⟩

/-- The copy of a moment, which is the file itself if the moment has not come. -/
def copy (vault : Vault) (moment : Nat) : StateDb := (vault.copies[moment]?).getD vault.world.disk

variable (A : Aead) (P : Primitives)

/-- What a move does to the world. -/
def move (vault : Vault) : Move → StoreReply × World
  | .call input => vault.world.step A P input
  | .overwrite moment => (.silent, vault.world.overwrite (vault.copy moment))
  | .exchange moment => (.silent, vault.world.exchange (vault.copy moment))

/-- A move, after which the file is copied. -/
def step (vault : Vault) (move : Move) : StoreReply × Vault :=
  let result := vault.move A P move
  (result.1, ⟨result.2, vault.copies ++ [result.2.disk]⟩)

end Vault

/-- How a transaction ends whose body goes through or does not, and whether it takes
effect. -/
def Storage.settle : Storage → Bool → Verdict × Bool
  | sound, true => (.done, true)
  | commitError applied, true => (.refused .storage, applied)
  | crash applied, true => (.died, applied)
  | crash _, false => (.died, false)
  | _, _ => (.refused .storage, false)

/-- One version of the state with the version it was made from. -/
structure Version where
  parent : Option Nat
  generation : Nat
  state : Bytes

/-- A handle that stands on a version. -/
structure Reader where
  process : Nat
  version : Nat
  poisoned : Bool

structure Versions where
  versions : List Version
  current : Option Nat
  copies : List (Option Nat)
  handles : List (Option Reader)

namespace Versions

def initial : Versions := ⟨[], none, [none], []⟩

/-- The number of a version on its branch; roots have the number one. -/
def generation (v : Versions) (version : Nat) : Nat :=
  ((v.versions[version]?).map Version.generation).getD 0

/-- A new version comes to be and the file shows it. -/
def put (v : Versions) (parent : Option Nat) (state : Bytes) : Versions :=
  { v with
    versions := v.versions ++ [⟨parent, (parent.map v.generation).getD 0 + 1, state⟩]
    current := some v.versions.length }

def kill (v : Versions) (process : Nat) : Versions :=
  { v with handles := v.handles.map fun held =>
      held.filter (fun reader => reader.process ≠ process) }

def add (v : Versions) (reader : Reader) : StoreReply × Versions :=
  (.opened v.handles.length, { v with handles := v.handles ++ [some reader] })

def seat (v : Versions) (id : Nat) (reader : Option Reader) : Versions :=
  { v with handles := v.handles.set id reader }

/-- A root is made while the file shows nothing. -/
def create (v : Versions) (process : Nat) (state : Bytes) (ready : Bool) (storage : Storage) :
    StoreReply × Versions :=
  if ready then
    let outcome := storage.settle v.current.isNone
    let next := if outcome.2 then v.put none state else v
    match outcome.1 with
    | .done => next.add ⟨process, v.versions.length, false⟩
    | .refused e => (.failed e, next)
    | .died => (.silent, next.kill process)
  else (.failed .storage, v)

def openStore (v : Versions) (process : Nat) (storage : Storage) : StoreReply × Versions :=
  match storage, v.current with
  | .crash _, _ => (.silent, v.kill process)
  | .sound, some version => v.add ⟨process, version, false⟩
  | _, _ => (.failed .storage, v)

/-- A version is made from the one the handle stands on while the file shows it. -/
def commit (v : Versions) (id : Nat) (state : Bytes) (drawn : Bool) (storage : Storage) :
    StoreReply × Versions :=
  match Slots.lookup v.handles id with
  | none => (.silent, v)
  | some reader =>
      if reader.poisoned then (.failed .storage, v)
      else if drawn ∧ state.length ≤ maxPlaintextBytes ∧
          v.generation reader.version < 2 ^ 63 - 1 then
        let outcome := storage.settle (v.current = some reader.version)
        let next := if outcome.2 then v.put (some reader.version) state else v
        match outcome.1 with
        | .done => (.committed, next.seat id (some { reader with version := v.versions.length }))
        | .refused e => (.failed e, next.seat id (some { reader with poisoned := true }))
        | .died => (.silent, next.kill reader.process)
      else (.failed .storage, v.seat id (some { reader with poisoned := true }))

/-- The version that the file showed at a moment. -/
def copy (v : Versions) (moment : Nat) : Option Nat := (v.copies[moment]?).getD v.current

/-- A version is put back in the place of another one. -/
def overwrite (v : Versions) (version : Option Nat) : Versions :=
  match version, v.current with
  | some version, some _ => { v with current := some version }
  | _, _ => v

/-- What an old file shows is put back, and no handle is left. -/
def exchange (v : Versions) (version : Option Nat) : Versions :=
  { v with current := version, handles := v.handles.map fun _ => none }

/-- A creation can be prepared. -/
def ready (seen : StateDb) (state : Bytes) (dek : Option Dek) (nonce : Option StateNonce) : Bool :=
  seen.validateEmptyDatabase.isOk ∧ dek.isSome ∧ nonce.isSome ∧ state.length ≤ maxPlaintextBytes

def move (v : Versions) : Move → StoreReply × Versions
  | .call (.create process _ seen state dek nonce storage) =>
      v.create process state (ready seen state dek nonce) storage
  | .call (.openStore process _ storage) => v.openStore process storage
  | .call (.commit id state nonce storage) => v.commit id state nonce.isSome storage
  | .call (.drop id) => (.silent, v.seat id none)
  | .call (.crash process) => (.silent, v.kill process)
  | .call (.tamper _) => (.silent, v)
  | .overwrite moment => (.silent, v.overwrite (v.copy moment))
  | .exchange moment => (.silent, v.exchange (v.copy moment))

/-- A move, after which it is noted what the file shows. -/
def step (v : Versions) (move : Move) : StoreReply × Versions :=
  let result := v.move move
  (result.1, { result.2 with copies := result.2.copies ++ [result.2.current] })

/-- Roots have the number one, and every other version follows an earlier one. -/
def Branched (v : Versions) : Prop :=
  ∀ i version, v.versions[i]? = some version →
    (version.parent = none ∧ version.generation = 1) ∨
      ∃ j, version.parent = some j ∧ j < i ∧ version.generation = v.generation j + 1

/-- A version made from nothing or from one that is there. -/
theorem Branched.put {v : Versions} (branched : v.Branched) {parent : Option Nat}
    (inside : ∀ j, parent = some j → j < v.versions.length) (state : Bytes) :
    (v.put parent state).Branched := by
  have kept : ∀ j, j < v.versions.length → (v.put parent state).generation j = v.generation j := by
    intro j earlier
    rw [generation, generation, Versions.put, List.getElem?_append_left earlier]
  intro i version found
  simp only [Versions.put, List.getElem?_append] at found
  split at found
  · next old =>
    obtain root | ⟨j, made, before, number⟩ := branched i version found
    · exact .inl root
    · exact .inr ⟨j, made, before, by rw [number, kept j (Nat.lt_trans before old)]⟩
  · next new =>
    obtain rfl := List.mem_singleton.mp (List.mem_of_getElem? found)
    cases parent with
    | none => exact .inl ⟨rfl, rfl⟩
    | some j =>
        have earlier := inside j rfl
        exact .inr ⟨j, rfl, Nat.lt_of_lt_of_le earlier (Nat.le_of_not_lt new),
          by rw [kept j earlier]; rfl⟩

/-- What a handle answers about its version. -/
def read (v : Versions) (reader : Reader) : Except LabError (Nat × Bytes) :=
  match reader.poisoned, v.versions[reader.version]? with
  | false, some version => .ok (version.generation, version.state)
  | _, _ => .error .storage

end Versions

end SecureMessenger
