import Mathlib.Logic.Equiv.Defs
import SecureMessenger.Persistence.Store

/-!
# The state is opaque to the store

The store sees the state it keeps as bytes of some length. Rename all states by a
permutation of texts that keeps their lengths, and let the cipher undo the renaming:
then every run, with any faults and any tampering, is the same run with the states
renamed. The file, the answers, the generations and all sealed forms stay as they are.

What the file shows of the states is therefore what the cipher shows of them, and their
lengths: over a cipher that is as likely as its renamings, a history is not told apart
from its renamings.
-/

namespace SecureMessenger

open Machine Fallible Envelope

variable {A : Aead} {P : Primitives} {σ : Bytes ≃ Bytes}

/-- The cipher that undoes a renaming of the texts before it encrypts. -/
def Aead.rename (σ : Bytes ≃ Bytes) (A : Aead) : Aead where
  encrypt key nonce aad plaintext := A.encrypt key nonce aad (σ.symm plaintext)
  decrypt key nonce aad ciphertext := (A.decrypt key nonce aad ciphertext).map σ

def StateCache.rename (σ : Bytes ≃ Bytes) (c : StateCache) : StateCache :=
  { c with state := σ c.state }

def ClientStateStore.rename (σ : Bytes ≃ Bytes) (store : ClientStateStore) : ClientStateStore :=
  { store with cached := store.cached.rename σ }

def Handle.rename (σ : Bytes ≃ Bytes) (h : Handle) : Handle :=
  { h with store := h.store.rename σ }

/-- The states that handles hold are renamed; the file is the same. -/
def World.rename (σ : Bytes ≃ Bytes) (w : World) : World :=
  { w with handles := w.handles.map (Option.map (Handle.rename σ)) }

/-- A call with its state renamed. -/
def Input.rename (σ : Bytes ≃ Bytes) : Input → Input
  | create process protector seen state dek nonce storage =>
      create process protector seen (σ state) dek nonce storage
  | commit id state nonce storage => commit id (σ state) nonce storage
  | input => input

section Sealing

variable (keeps : ∀ text, (σ text).length = text.length)
include keeps

theorem sealEnvelope_rename (binding : ProfileBinding) (generation : UInt64) (wrappedDek : Bytes)
    (dek : Dek) (nonce : StateNonce) (plaintext : Bytes) :
    sealEnvelope (A.rename σ) P binding generation wrappedDek dek nonce (σ plaintext) =
      sealEnvelope A P binding generation wrappedDek dek nonce plaintext := by
  simp only [sealEnvelope, keeps, Aead.rename, Equiv.symm_apply_apply]

theorem prepareCreate_rename (protector : StateKeyProtector) (seen : StateDb) (state : Bytes)
    (dek : Option Dek) (nonce : Option StateNonce) :
    prepareCreate (A.rename σ) P protector seen (σ state) dek nonce =
      (prepareCreate A P protector seen state dek nonce).map (StateCache.rename σ) := by
  simp only [prepareCreate, sealEnvelope_rename keeps, map_bind, map_ok]
  rfl

theorem prepareCommit_rename (cached : StateCache) (state : Bytes) (nonce : Option StateNonce) :
    prepareCommit (A.rename σ) P (cached.rename σ) (σ state) nonce =
      (prepareCommit A P cached state nonce).map (StateCache.rename σ) := by
  simp only [prepareCommit, StateCache.rename, sealEnvelope_rename keeps, map_bind, map_ok]
  rfl

end Sealing

theorem openEnvelope_rename (binding : ProfileBinding) (generation : UInt64) (wrappedDek : Bytes)
    (dek : Dek) (nonce : StateNonce) (ciphertext : Bytes) :
    openEnvelope (A.rename σ) P binding generation wrappedDek dek nonce ciphertext =
      (openEnvelope A P binding generation wrappedDek dek nonce ciphertext).map σ := by
  simp only [openEnvelope, aad_eq, ok_bind, map_bind, Aead.rename]
  cases A.decrypt dek nonce _ ciphertext <;> rfl

theorem openIn_rename (db : StateDb) (protector : StateKeyProtector) :
    openIn (A.rename σ) P db protector = (openIn A P db protector).map (StateCache.rename σ) := by
  simp only [openIn, openEnvelope_rename, bind_map, map_bind, map_ok]
  rfl

/-- The transactions look at sealed forms only. -/
theorem createIn_rename (db : StateDb) (cached : StateCache) :
    createIn db (cached.rename σ) = createIn db cached := rfl

theorem commitIn_rename (db : StateDb) (cached candidate : StateCache) :
    commitIn db (cached.rename σ) (candidate.rename σ) = commitIn db cached candidate := rfl

theorem ClientStateStore.commit_rename (keeps : ∀ text, (σ text).length = text.length)
    (store : ClientStateStore) (disk : StateDb) (state : Bytes) (nonce : Option StateNonce)
    (storage : Storage) :
    (store.rename σ).commit (A.rename σ) P disk (σ state) nonce storage =
      (store.commit A P disk state nonce storage).map id (Prod.map (rename σ) id) := by
  obtain ⟨protector, cached, poisoned⟩ := store
  cases poisoned with
  | true => rfl
  | false =>
      simp only [commit, rename, commitInner, prepareCommit_rename keeps]
      cases prepareCommit A P cached state nonce with
      | error e => rfl
      | ok candidate =>
          simp only [map_ok, commitIn_rename]
          obtain ⟨verdict, disk'⟩ := storage.transact disk (commitIn disk cached candidate)
          cases verdict <;> rfl

namespace World

theorem disk_rename (w : World) : (w.rename σ).disk = w.disk := rfl

theorem kill_rename (w : World) (process : Nat) :
    (w.rename σ).kill process = (w.kill process).rename σ := by
  simp only [kill, rename, List.map_map]
  refine congrArg (World.mk w.disk) (List.map_congr_left fun held _ => ?_)
  cases held with
  | none => rfl
  | some h =>
      have same : (h.rename σ).process = h.process := rfl
      simp only [Function.comp_apply, Option.map_some, Option.filter_some, same]
      split <;> rfl

theorem add_rename (w : World) (h : Handle) :
    (w.rename σ).add (h.rename σ) = (w.add h).map id (rename σ) := by
  simp [add, rename]

theorem handle_rename (w : World) (id : Nat) :
    (w.rename σ).handle id = (w.handle id).map (Handle.rename σ) := by
  simp only [handle, rename, List.getElem?_map]
  cases w.handles[id]? <;> rfl

theorem set_rename (disk : StateDb) (w : World) (id : Nat) (held : Option Handle) :
    World.mk disk ((w.rename σ).handles.set id (held.map (Handle.rename σ))) =
      (World.mk disk (w.handles.set id held)).rename σ := by
  simp only [rename, List.map_set]

/-- One step of the store on renamed states is the same step, renamed. -/
theorem step_rename (keeps : ∀ text, (σ text).length = text.length) (w : World) (input : Input) :
    (w.rename σ).step (A.rename σ) P (input.rename σ) = (w.step A P input).map id (rename σ) := by
  cases input with
  | create process protector seen state dek nonce storage =>
      simp only [step, Input.rename, create, prepareCreate_rename keeps]
      cases prepareCreate A P protector seen state dek nonce with
      | error e => rfl
      | ok cached =>
          simp only [map_ok, createIn_rename]
          rw [disk_rename]
          obtain ⟨verdict, disk⟩ := storage.transact w.disk (createIn w.disk cached)
          cases verdict with
          | done => exact add_rename { w with disk } ⟨process, protector, cached, false⟩
          | refused e => rfl
          | died => exact congrArg _ (kill_rename { w with disk } process)
  | openStore process protector storage =>
      simp only [step, Input.rename, openStore, disk_rename, openIn_rename]
      cases openIn A P w.disk protector with
      | error e =>
          cases storage with
          | sound | fails | commitError => rfl
          | crash applied => exact congrArg _ (kill_rename w process)
      | ok cached =>
          cases storage with
          | sound => exact add_rename w ⟨process, protector, cached, false⟩
          | fails | commitError => rfl
          | crash applied => exact congrArg _ (kill_rename w process)
  | commit id state nonce storage =>
      simp only [step, Input.rename, commit, handle_rename]
      cases w.handle id with
      | none => rfl
      | some h =>
          have call := h.store.commit_rename (A := A) (P := P) keeps w.disk state nonce storage
          simp only [Option.map_some, Handle.rename, disk_rename, call]
          obtain ⟨verdict, store, disk⟩ := h.store.commit A P w.disk state nonce storage
          cases verdict with
          | done => exact congrArg _ (set_rename disk w id (some { h with store }))
          | refused e => exact congrArg _ (set_rename disk w id (some { h with store }))
          | died => exact congrArg _ (kill_rename { w with disk } h.process)
  | drop id => exact congrArg _ (set_rename w.disk w id none)
  | crash process => exact congrArg _ (kill_rename w process)
  | tamper image => rfl

end World

/-- Renaming the states and letting the cipher undo it changes nothing else in any run:
the answers and the file are the same, and the handles hold the renamed states. -/
theorem runs_of_renamed_states (keeps : ∀ text, (σ text).length = text.length)
    (inputs : List Input) :
    (trace (World.step (A.rename σ) P) .initial (inputs.map (Input.rename σ))).map Prod.snd =
        (trace (World.step A P) .initial inputs).map Prod.snd ∧
      World.after (A.rename σ) P (inputs.map (Input.rename σ)) =
        (World.after A P inputs).rename σ := by
  have one := World.step_rename (A := A) (P := P) keeps
  constructor
  · have traces := trace_map one World.initial inputs
    have start : World.initial.rename σ = World.initial := rfl
    rw [start] at traces
    rw [traces, List.map_map]
    exact List.map_congr_left fun _ _ => rfl
  · exact run_map one World.initial inputs

namespace Renaming

/-- Every text is read backwards. -/
def backwards : Bytes ≃ Bytes where
  toFun := List.reverse
  invFun := List.reverse
  left_inv := List.reverse_reverse
  right_inv := List.reverse_reverse

def protector : StateKeyProtector := .symbolic ⟨.fill 16 1, .fill 16 2⟩

def inputs : List Input :=
  [.create 0 protector .empty [7] (some (.fill 32 3)) (some (.fill 24 4)) .sound,
    .commit 0 [8, 9] (some (.fill 24 5)) (.commitError true), .openStore 1 protector .sound]

theorem runs_of_renamed_states_backwards :
    (World.after (Aead.symbolic.rename backwards) .symbolic
        (inputs.map (Input.rename backwards))).disk =
          (World.after .symbolic .symbolic inputs).disk ∧
      ((World.after (Aead.symbolic.rename backwards) .symbolic
        (inputs.map (Input.rename backwards))).store 1).map (·.cached.state) = some [9, 8] := by
  have same : World.after (Aead.symbolic.rename backwards) .symbolic
      (inputs.map (Input.rename backwards)) = (World.after .symbolic .symbolic inputs).rename
        backwards :=
    (runs_of_renamed_states (fun _ => List.length_reverse) inputs).2
  rw [same]
  exact ⟨World.disk_rename _, by decide +kernel⟩

end Renaming

end SecureMessenger
