import SecureMessenger.Library.Machine
import SecureMessenger.Persistence.Database

/-!
# The client state store

A handle caches the snapshot it last read or wrote, in plain and in sealed form.
`create`, `openStore` and `commit` follow the source up to their one transaction;
what the operating system does to that transaction is an input. A statement may
fail, which rolls back; `COMMIT` may report an error, and the process may die,
and in both cases the transaction may or may not have taken effect.

The world is one database file with the handles that were ever made, in any number
of processes. Random bytes and the platform's answers are inputs as well, so a
list of inputs is one interleaving with one history of faults. A call is one input
at the point of its transaction. Everything else it does reads and writes its own
handle only, except that `create` looks at the file once before its transaction;
the image it then sees is an input too. `tamper` replaces the contents of the file
by a transaction of somebody else.
-/

namespace SecureMessenger

open Fallible Envelope

/-- A snapshot in plain and in sealed form. -/
structure StateCache where
  binding : ProfileBinding
  dek : Dek
  wrappedDek : Bytes
  nonce : StateNonce
  ciphertext : Bytes
  generation : UInt64
  state : Bytes
deriving DecidableEq

structure ClientStateStore where
  protector : StateKeyProtector
  cached : StateCache
  poisoned : Bool

namespace ClientStateStore

def ensureUsable (store : ClientStateStore) : Except LabError Unit :=
  rejectIf (store.poisoned = true) .storage

def state (store : ClientStateStore) : Except LabError Bytes := do
  store.ensureUsable
  .ok store.cached.state

def generation (store : ClientStateStore) : Except LabError UInt64 := do
  store.ensureUsable
  .ok store.cached.generation

def binding (store : ClientStateStore) : Except LabError ProfileBinding := do
  store.ensureUsable
  .ok store.cached.binding

def protectionLevel (store : ClientStateStore) : ProtectionLevel := store.protector.protectionLevel

end ClientStateStore

/-- The bytes a random source delivered, if it did not fail. -/
def fill {α : Type} (bytes : Option α) : Except LabError α :=
  match bytes with
  | some bytes => .ok bytes
  | none => .error .storage

def validateCiphertextLen (length : Nat) : Except LabError Unit :=
  rejectIf (length < 16 ∨ length > maxCiphertextBytes) .storage

/-- The part of `create` before its transaction. `seen` is the file at the first
of the two checks that the database is empty. -/
def prepareCreate (A : Aead) (P : Primitives) (protector : StateKeyProtector) (seen : StateDb)
    (state : Bytes) (dek : Option Dek) (nonce : Option StateNonce) :
    Except LabError StateCache := do
  let binding ← protector.expectedBinding
  seen.validateEmptyDatabase
  let dek ← fill dek
  let wrappedDek ← protector.wrapDek dek
  rejectIf (wrappedDek = [] ∨ wrappedDek.length > wrappedDekMaxBytes) .storage
  let nonce ← fill nonce
  let ciphertext ← sealEnvelope A P binding 1 wrappedDek dek nonce state
  validateCiphertextLen ciphertext.length
  .ok { binding, dek, wrappedDek, nonce, ciphertext, generation := 1, state }

/-- The transaction of `create`, up to its `COMMIT`. -/
def createIn (db : StateDb) (cached : StateCache) : Except LabError StateDb := do
  db.validateEmptyDatabase
  let db ← db.createSchema
  let db ← db.insertRow
    { slot
      profileId := cached.binding.profileId.toList
      generation := 1
      envelopeVersion
      stateSchemaVersion
      cryptoSuite
      keyRef := cached.binding.keyRef.toList
      wrappedDek := cached.wrappedDek
      nonce := cached.nonce.toList
      ciphertext := cached.ciphertext }
  db.validateSchema
  .ok db

/-- What `open` finds in the file: the row under the expected binding, unwrapped
and opened. -/
def openIn (A : Aead) (P : Primitives) (db : StateDb) (protector : StateKeyProtector) :
    Except LabError StateCache := do
  let binding ← protector.expectedBinding
  db.validateSchema
  let row ← readRow db binding
  let dek ← protector.unwrapDek row.wrappedDek
  let state ← openEnvelope A P binding row.generation row.wrappedDek dek row.nonce row.ciphertext
  .ok
    { binding
      dek
      wrappedDek := row.wrappedDek
      nonce := row.nonce
      ciphertext := row.ciphertext
      generation := row.generation
      state }

/-- The part of `commit` before its transaction: the snapshot that is to replace
the cached one. -/
def prepareCommit (A : Aead) (P : Primitives) (cached : StateCache) (state : Bytes)
    (nonce : Option StateNonce) : Except LabError StateCache := do
  rejectIf (cached.generation.toNat + 1 ≥ 2 ^ 64) .storage
  let nextGeneration := cached.generation + 1
  let nonce ← fill nonce
  let ciphertext ← sealEnvelope A P cached.binding nextGeneration cached.wrappedDek cached.dek
    nonce state
  validateCiphertextLen ciphertext.length
  .ok { cached with nonce, ciphertext, generation := nextGeneration, state }

/-- The transaction of `commit`, up to its `COMMIT`: the row is replaced only if
every column is still the cached one. -/
def commitIn (db : StateDb) (cached candidate : StateCache) : Except LabError StateDb := do
  let expected ← toI64 cached.generation
  let next ← toI64 candidate.generation
  db.validateSchema
  let (changed, db) ← db.updateRows
    (fun row => row.slot = slot ∧ row.generation = expected ∧
      row.profileId = cached.binding.profileId.toList ∧
      row.keyRef = cached.binding.keyRef.toList ∧ row.envelopeVersion = envelopeVersion ∧
      row.stateSchemaVersion = stateSchemaVersion ∧ row.cryptoSuite = cryptoSuite ∧
      row.wrappedDek = cached.wrappedDek ∧ row.nonce = cached.nonce.toList ∧
      row.ciphertext = cached.ciphertext)
    (fun row => { row with
      generation := next
      nonce := candidate.nonce.toList
      ciphertext := candidate.ciphertext })
  rejectIf (changed ≠ 1) .storage
  .ok db

/-- What happens to a call that reaches the disk. -/
inductive Storage
  | sound
  | fails
  | commitError (applied : Bool)
  | crash (applied : Bool)
deriving DecidableEq

/-- How a call ended, if it did. -/
inductive Verdict
  | done
  | refused (error : LabError)
  | died
deriving DecidableEq

/-- Run a transaction whose body is known, and leave the file it leaves. -/
def Storage.transact (storage : Storage) (disk : StateDb) (body : Except LabError StateDb) :
    Verdict × StateDb :=
  match storage, body with
  | sound, .ok next => (.done, next)
  | sound, .error e => (.refused e, disk)
  | fails, _ => (.refused .storage, disk)
  | commitError applied, .ok next => (.refused .storage, if applied then next else disk)
  | commitError _, .error e => (.refused e, disk)
  | crash applied, .ok next => (.died, if applied then next else disk)
  | crash _, .error _ => (.died, disk)

namespace ClientStateStore

variable (A : Aead) (P : Primitives)

/-- The cache is replaced after `COMMIT` has succeeded. -/
def commitInner (store : ClientStateStore) (disk : StateDb) (state : Bytes)
    (nonce : Option StateNonce) (storage : Storage) : Verdict × StateCache × StateDb :=
  match prepareCommit A P store.cached state nonce with
  | .error e => (.refused e, store.cached, disk)
  | .ok candidate =>
      match storage.transact disk (commitIn disk store.cached candidate) with
      | (.done, disk) => (.done, candidate, disk)
      | (verdict, disk) => (verdict, store.cached, disk)

/-- A commit that fails for any reason poisons its handle. -/
def commit (store : ClientStateStore) (disk : StateDb) (state : Bytes)
    (nonce : Option StateNonce) (storage : Storage) : Verdict × ClientStateStore × StateDb :=
  if store.poisoned then (.refused .storage, store, disk)
  else
    match store.commitInner A P disk state nonce storage with
    | (.refused e, cached, disk) => (.refused e, { store with cached, poisoned := true }, disk)
    | (verdict, cached, disk) => (verdict, { store with cached }, disk)

end ClientStateStore

/-- A handle with the process that holds it. -/
structure Handle where
  process : Nat
  store : ClientStateStore

/-- One database file and all handles ever made on it; a handle that was dropped
leaves its place empty. -/
structure World where
  disk : StateDb
  handles : List (Option Handle)

inductive Input
  | create (process : Nat) (protector : StateKeyProtector) (seen : StateDb) (state : Bytes)
      (dek : Option Dek) (nonce : Option StateNonce) (storage : Storage)
  | openStore (process : Nat) (protector : StateKeyProtector) (storage : Storage)
  | commit (handle : Nat) (state : Bytes) (nonce : Option StateNonce) (storage : Storage)
  | drop (handle : Nat)
  | crash (process : Nat)
  | tamper (image : StateDb)

/-- The answer of a call, if its caller is still there and it was a call. -/
inductive StoreReply
  | opened (handle : Nat)
  | committed
  | failed (error : LabError)
  | silent
deriving DecidableEq

namespace World

/-- A new file and no handles. -/
def initial : World := ⟨.empty, []⟩

def handle (w : World) (id : Nat) : Option Handle := (w.handles[id]?).join

def store (w : World) (id : Nat) : Option ClientStateStore := (w.handle id).map Handle.store

/-- A process dies with all its handles. -/
def kill (w : World) (process : Nat) : World :=
  { w with handles := w.handles.map fun held =>
      held.filter (fun handle => handle.process ≠ process) }

def add (w : World) (handle : Handle) : StoreReply × World :=
  (.opened w.handles.length, { w with handles := w.handles ++ [some handle] })

variable (A : Aead) (P : Primitives)

def create (w : World) (process : Nat) (protector : StateKeyProtector) (seen : StateDb)
    (state : Bytes) (dek : Option Dek) (nonce : Option StateNonce) (storage : Storage) :
    StoreReply × World :=
  match prepareCreate A P protector seen state dek nonce with
  | .error e => (.failed e, w)
  | .ok cached =>
      match storage.transact w.disk (createIn w.disk cached) with
      | (.done, disk) => { w with disk }.add ⟨process, protector, cached, false⟩
      | (.refused e, disk) => (.failed e, { w with disk })
      | (.died, disk) => (.silent, { w with disk }.kill process)

/-- The transaction of an open only reads, so a fault of it changes nothing. -/
def openStore (w : World) (process : Nat) (protector : StateKeyProtector) (storage : Storage) :
    StoreReply × World :=
  match storage, openIn A P w.disk protector with
  | .crash _, _ => (.silent, w.kill process)
  | _, .error e => (.failed e, w)
  | .sound, .ok cached => w.add ⟨process, protector, cached, false⟩
  | _, .ok _ => (.failed .storage, w)

def commit (w : World) (id : Nat) (state : Bytes) (nonce : Option StateNonce)
    (storage : Storage) : StoreReply × World :=
  match w.handle id with
  | none => (.silent, w)
  | some handle =>
      match handle.store.commit A P w.disk state nonce storage with
      | (.done, store, disk) =>
          (.committed, ⟨disk, w.handles.set id (some { handle with store })⟩)
      | (.refused e, store, disk) =>
          (.failed e, ⟨disk, w.handles.set id (some { handle with store })⟩)
      | (.died, _, disk) => (.silent, { w with disk }.kill handle.process)

def step (w : World) : Input → StoreReply × World
  | .create process protector seen state dek nonce storage =>
      w.create A P process protector seen state dek nonce storage
  | .openStore process protector storage => w.openStore A P process protector storage
  | .commit id state nonce storage => w.commit A P id state nonce storage
  | .drop id => (.silent, { w with handles := w.handles.set id none })
  | .crash process => (.silent, w.kill process)
  | .tamper image => (.silent, { w with disk := image })

/-- The world after a list of inputs. -/
def after (inputs : List Input) : World := Machine.run (step A P) initial inputs

/-- The snapshot a call seals, whatever becomes of it. -/
def sealing (w : World) : Input → Option StateCache
  | .create _ protector seen state dek nonce _ =>
      (prepareCreate A P protector seen state dek nonce).toOption
  | .commit id state nonce _ =>
      match w.store id with
      | some store =>
          if store.poisoned then none else (prepareCommit A P store.cached state nonce).toOption
      | none => none
  | _ => none

/-- The snapshot that takes effect at an input: the one it sealed, if the file is
another one afterwards. -/
def effect (w : World) (input : Input) : Option StateCache :=
  if (w.step A P input).2.disk = w.disk then none else w.sealing A P input

end World

end SecureMessenger
