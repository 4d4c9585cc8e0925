import SecureMessenger.Persistence.Chain

/-!
# The state store against a hostile file

Here the file may be replaced at any moment. The first theorem is about commits: a
handle always caches a row that opens to its own state, and a commit goes through
only where the file still holds that row, column by column. Generations may repeat
after a rollback, so the generation alone would not tell two histories apart.

The second theorem is about opening. Honest calls on any number of files, under any
number of bindings, have sealed and written snapshots. A row that opens is one of
those snapshots in all its columns, provided that its ciphertext was not forged.
-/

namespace SecureMessenger

open Machine Envelope Fallible

variable {A : Aead} {P : Primitives}

namespace World

section Commit

variable {inputs : List Input} {id : Nat} {state : Bytes} {nonce : Option StateNonce}
variable {storage : Storage} {store : ClientStateStore}

/-- Every usable handle caches a row that opens to its state. -/
def Consistent (A : Aead) (P : Primitives) (w : World) : Prop :=
  ∀ id store, w.store id = some store → store.poisoned = false → store.cached.Opens A P

theorem Consistent.step {w : World} (consistent : w.Consistent A P) (correct : A.Correct)
    (input : Input) : (w.step A P input).2.Consistent A P := by
  have done := step_effect A P w input
  generalize (w.step A P input).2 = w' at done ⊢
  generalize w.effect A P input = taken at done
  cases done with
  | idle _ evolves => exact evolves.held (by simp) consistent
  | tampered _ evolves => exact evolves.held (by simp) consistent
  | created prepared _ evolves =>
      refine evolves.held ?_ consistent
      rintro c ⟨rfl⟩
      exact (prepareCreate_spec prepared).1.opens correct
  | opened found _ evolves =>
      refine evolves.held ?_ consistent
      rintro c ⟨rfl⟩
      exact (openIn_spec found).2.2.2.2
  | committed _ _ prepared _ evolves =>
      refine evolves.held ?_ consistent
      rintro c ⟨rfl⟩
      exact (prepareCommit_spec prepared).1.opens correct

theorem consistent_after (correct : A.Correct) (inputs : List Input) :
    (after A P inputs).Consistent A P :=
  invariant_run (fun w : World => w.Consistent A P)
    (fun _ input consistent => consistent.step correct input)
    (fun id store listed => by simp [World.store, handle, initial] at listed) inputs

/-- Where the file does not hold the cached row, a commit that returns does so with
an error, leaves the file alone and poisons its handle. -/
theorem commit_refused_of_ne {w : World} (listed : w.store id = some store)
    (different : w.disk.rows ≠ [store.cached.row]) :
    (w.step A P (.commit id state nonce storage)).1 ≠ .committed ∧
    (w.step A P (.commit id state nonce storage)).2.disk = w.disk ∧
    ((∀ applied, storage ≠ .crash applied) →
      (∃ e, (w.step A P (.commit id state nonce storage)).1 = .failed e) ∧
      ∃ store', (w.step A P (.commit id state nonce storage)).2.store id = some store' ∧
        store'.poisoned = true) := by
  obtain ⟨h, held, rfl⟩ := Option.map_eq_some_iff.mp listed
  have outcome := h.store.commit_cases (A := A) (P := P) w.disk state nonce storage
  have stays : (h.store.commit A P w.disk state nonce storage).2.2 = w.disk ∧
      (h.store.commit A P w.disk state nonce storage).1 ≠ .done := by
    obtain unchanged | ⟨_, _, _, applied, _⟩ := outcome
    · exact unchanged
    · exact absurd (commitIn_spec applied).2.1 different
  have returns : (∀ applied, storage ≠ .crash applied) →
      (h.store.commit A P w.disk state nonce storage).1 ≠ .died :=
    fun survives => ClientStateStore.commit_survives survives
  have failed := @commit_failed A P w id state nonce storage
  simp only [step, commit, held] at failed ⊢
  generalize h.store.commit A P w.disk state nonce storage = result at stays returns failed ⊢
  obtain ⟨verdict, after, disk⟩ := result
  cases verdict with
  | done => exact absurd rfl stays.2
  | died => exact ⟨by simp, stays.1, fun survives => absurd rfl (returns survives)⟩
  | refused e => exact ⟨by simp, stays.1, fun _ => ⟨⟨e, rfl⟩, failed rfl⟩⟩

/-- Commits under rollback and tampering. In every interleaving with an attacker who
replaces the file at will, the row a usable handle caches opens, under its key and
binding, to exactly the bytes it returns as its state. A commit that returns success
found the file holding that row in every column, and leaves the row with the next
generation and a new nonce and ciphertext and everything else as it was. Where the
file holds anything else, the commit fails, changes nothing and poisons the handle. -/
theorem commit_under_tampering (correct : A.Correct) (inputs : List Input) :
    (∀ id store, (after A P inputs).store id = some store → store.poisoned = false →
      store.state = .ok store.cached.state ∧
      openEnvelope A P store.cached.binding store.cached.generation store.cached.wrappedDek
        store.cached.dek store.cached.nonce store.cached.ciphertext = .ok store.cached.state) ∧
    ∀ id store state nonce storage, (after A P inputs).store id = some store →
      (((after A P inputs).step A P (.commit id state nonce storage)).1 = .committed →
        (after A P inputs).disk.rows = [store.cached.row] ∧
        ∃ nonce' ciphertext',
          ((after A P inputs).step A P (.commit id state nonce storage)).2.disk =
            { (after A P inputs).disk with
              rows := [{ store.cached.row with
                generation := store.cached.row.generation + 1
                nonce := nonce'
                ciphertext := ciphertext' }] }) ∧
      ((after A P inputs).disk.rows ≠ [store.cached.row] →
        ((after A P inputs).step A P (.commit id state nonce storage)).1 ≠ .committed ∧
        ((after A P inputs).step A P (.commit id state nonce storage)).2.disk =
          (after A P inputs).disk ∧
        ((∀ applied, storage ≠ .crash applied) →
          (∃ e, ((after A P inputs).step A P (.commit id state nonce storage)).1 = .failed e) ∧
          ∃ store',
            ((after A P inputs).step A P (.commit id state nonce storage)).2.store id =
              some store' ∧ store'.poisoned = true)) := by
  refine ⟨?_, ?_⟩
  · intro id store listed usable
    exact ⟨(state_of_usable usable).1, consistent_after correct inputs id store listed usable⟩
  · intro id store state nonce storage listed
    refine ⟨?_, commit_refused_of_ne listed⟩
    intro done
    obtain ⟨store', candidate, listed', _, prepared, applied, _⟩ := commit_committed done
    obtain rfl := Option.some.inj (listed.symm.trans listed')
    obtain ⟨_, rows, changed⟩ := commitIn_spec applied
    obtain ⟨_, succeeds, _⟩ := prepareCommit_spec prepared
    refine ⟨rows, candidate.nonce.toList, candidate.ciphertext, ?_⟩
    rw [changed, succeeds.generation]
    rfl

end Commit

namespace Rollback

open Contention (protector)

def created : List Input :=
  [.create 0 protector .empty [10] (some (.fill 32 3)) (some (.fill 24 4)) .sound]

/-- The first snapshot comes back after a second was committed, and another handle
commits a second one of its own. -/
def inputs : List Input :=
  created ++
    [.commit 0 [11] (some (.fill 24 5)) .sound,
      .tamper (after .symbolic .symbolic created).disk,
      .openStore 1 protector .sound,
      .commit 1 [12] (some (.fill 24 6)) .sound]

end Rollback

open Rollback in
theorem commit_under_tampering_rollback :
    (trace (step .symbolic .symbolic) initial
        (inputs ++ [.commit 0 [13] (some (.fill 24 7)) .sound])).map Prod.snd =
      [.opened 0, .committed, .silent, .opened 1, .committed, .failed .storage] ∧
    [0, 1].map (fun id => ((after .symbolic .symbolic inputs).store id).map fun store =>
        (store.cached.generation, store.cached.state)) = [some (2, [11]), some (2, [12])] ∧
    ∀ id store, (after .symbolic .symbolic inputs).store id = some store →
      store.poisoned = false →
      store.state = .ok store.cached.state ∧
      openEnvelope .symbolic .symbolic store.cached.binding store.cached.generation
        store.cached.wrappedDek store.cached.dek store.cached.nonce store.cached.ciphertext =
        .ok store.cached.state :=
  ⟨by decide +kernel, by decide +kernel,
    (commit_under_tampering Aead.symbolic_correct inputs).1⟩

section Open

variable {histories : List (List Input)}

variable (A P) in
/-- What the calls of some histories sealed, each history on a file of its own. -/
def sealings (histories : List (List Input)) : List StateCache :=
  histories.flatMap (collect (step A P) (sealing A P) initial)

variable (A P) in
/-- What the calls of some histories wrote. -/
def writings (histories : List (List Input)) : List StateCache :=
  histories.flatMap (chain A P)

theorem sealed_of_sealing {w : World} {input : Input} {s : StateCache}
    (found : w.sealing A P input = some s) : s.Sealed A P := by
  cases input with
  | create process protector seen state dek nonce storage =>
      exact (prepareCreate_spec (toOption_eq_some.mp found)).1
  | commit id state nonce storage =>
      simp only [sealing] at found
      split at found
      · split at found
        · cases found
        · exact (prepareCommit_spec (toOption_eq_some.mp found)).1
      · cases found
  | openStore | drop | crash | tamper => cases found

theorem sealed_of_mem_sealings {s : StateCache} (member : s ∈ sealings A P histories) :
    s.Sealed A P := by
  obtain ⟨inputs, _, noted⟩ := List.mem_flatMap.mp member
  obtain ⟨_, _, _, _, found⟩ := mem_collect noted
  exact sealed_of_sealing found

/-- What was written had been sealed. -/
theorem mem_sealings_of_mem_writings {s : StateCache} (member : s ∈ writings A P histories) :
    s ∈ sealings A P histories := by
  obtain ⟨inputs, listed, noted⟩ := List.mem_flatMap.mp member
  refine List.mem_flatMap.mpr ⟨inputs, listed, mem_collect_of_observe ?_ noted⟩
  intro w input s found
  unfold effect at found
  split at found
  · cases found
  · exact found

variable (A P) in
/-- An ideal cipher has not been forged at this ciphertext: it decrypts only under
the key, the nonce and the associated data under which some listed snapshot was
sealed, and it is that snapshot's ciphertext. -/
def Unforged (log : List StateCache) (ciphertext : Bytes) : Prop :=
  ∀ key nonce bound plaintext, A.decrypt key nonce bound ciphertext = some plaintext →
    ∃ s ∈ log, s.dek = key ∧ s.nonce = nonce ∧
      aad P s.binding s.generation s.wrappedDek = .ok bound ∧ s.ciphertext = ciphertext

/-- A row that opens is one listed snapshot in all its columns. -/
theorem authentic_of_opens (correct : A.Correct) {log : List StateCache}
    (sealed : ∀ s ∈ log, s.Sealed A P) {cached : StateCache}
    (collisionFree : CollisionFree P
      (fun wrapped => wrapped = cached.wrappedDek ∨ ∃ s ∈ log, wrapped = s.wrappedDek))
    (unforged : Unforged A P log cached.ciphertext) (opens : cached.Opens A P) :
    cached ∈ log := by
  obtain ⟨_, _, _, decrypted⟩ := openEnvelope_eq_ok.mp opens
  obtain ⟨s, member, dek, nonce, bound, ciphertext⟩ := unforged _ _ _ _ decrypted
  rw [← aad_eq] at bound
  obtain ⟨binding, generation, hash⟩ := aad_inj bound
  have wrappedDek : s.wrappedDek = cached.wrappedDek :=
    collisionFree _ _ (.inr ⟨s, member, rfl⟩) (.inl rfl) hash
  have state : s.state = cached.state := by
    have opens' := (sealed s member).opens correct
    unfold StateCache.Opens at opens opens'
    rw [binding, generation, wrappedDek, dek, nonce, ciphertext, opens] at opens'
    exact (Except.ok.inj opens').symm
  have same : s = cached := by
    cases s
    cases cached
    simp_all
  exact same ▸ member

/-- Acceptance of hostile rows. Honest calls, in any number of histories on files of
their own and under any bindings, have sealed and written snapshots; then a file
holds whatever an attacker put together. If an open under a binding succeeds, the
file holds, in every column, one single snapshot of that binding, and the open
returns that snapshot's plaintext and generation. The snapshot is one that was
sealed if the cipher is ideal for all snapshots that were sealed, and one that was
written if the cipher is ideal for those that left their process. Nothing is asked
of the platform's unwrapping. -/
theorem open_accepts_only_authentic (correct : A.Correct) (histories : List (List Input))
    {w : World} {process : Nat} {protector : StateKeyProtector} {storage : Storage} {id : Nat}
    {binding : ProfileBinding} {row : StateRow} (presented : w.disk.rows = [row])
    (expected : protector.expectedBinding = .ok binding)
    (collisionFree : CollisionFree P (fun wrapped => wrapped = row.wrappedDek ∨
      ∃ s ∈ sealings A P histories, wrapped = s.wrappedDek))
    (opened : (w.step A P (.openStore process protector storage)).1 = .opened id) :
    ∃ store, (w.step A P (.openStore process protector storage)).2.store id = some store ∧
      (Unforged A P (sealings A P histories) row.ciphertext →
        ∃ s ∈ sealings A P histories, s.binding = binding ∧ row = s.row ∧
          store.state = .ok s.state ∧ store.generation = .ok s.generation) ∧
      (Unforged A P (writings A P histories) row.ciphertext →
        ∃ s ∈ writings A P histories, s.binding = binding ∧ row = s.row ∧
          store.state = .ok s.state ∧ store.generation = .ok s.generation) := by
  obtain ⟨cached, found, listed⟩ := openStore_opened opened
  obtain ⟨_, rows, expected', _, opens⟩ := openIn_spec found
  obtain rfl : row = cached.row := List.singleton_inj.mp (presented.symm.trans rows)
  have same : cached.binding = binding := Except.ok.inj (expected'.symm.trans expected)
  refine ⟨_, listed, ?_, ?_⟩
  · intro unforged
    exact ⟨cached, authentic_of_opens correct (fun _ => sealed_of_mem_sealings) collisionFree
      unforged opens, same, rfl, state_of_usable rfl⟩
  · intro unforged
    have fewer : CollisionFree P (fun wrapped => wrapped = cached.wrappedDek ∨
        ∃ s ∈ writings A P histories, wrapped = s.wrappedDek) :=
      fun a b ha hb => collisionFree a b
        (ha.imp_right fun ⟨s, member, same⟩ => ⟨s, mem_sealings_of_mem_writings member, same⟩)
        (hb.imp_right fun ⟨s, member, same⟩ => ⟨s, mem_sealings_of_mem_writings member, same⟩)
    exact ⟨cached, authentic_of_opens correct
      (fun _ member => sealed_of_mem_sealings (mem_sealings_of_mem_writings member)) fewer
      unforged opens, same, rfl, state_of_usable rfl⟩

end Open

namespace Hostile

open Framing
open Rollback (created)

def later : List Input := created ++ [.commit 0 [11] (some (.fill 24 5)) .sound]

def stranger : StateKeyProtector := .symbolic ⟨.fill 16 1, .fill 16 9⟩

/-- Two generations of one profile, and another profile on a file of its own. -/
def histories : List (List Input) :=
  [later, [.create 0 stranger .empty [20] (some (.fill 32 8)) (some (.fill 24 4)) .sound]]

/-- The file of the first profile, with rows put together by the attacker. -/
def file (rows : List StateRow) : World :=
  ⟨{ (after .symbolic .symbolic later).disk with rows }, []⟩

def old : List StateRow := (after .symbolic .symbolic created).disk.rows
def new : List StateRow := (after .symbolic .symbolic later).disk.rows

/-- The old row with the new ciphertext. -/
def mixed : List StateRow :=
  List.zipWith (fun a b => { a with ciphertext := b.ciphertext }) old new

/-- A symbolic ciphertext shows what it was sealed under. -/
theorem unforged {log : List StateCache} {s : StateCache} (member : s ∈ log)
    (sealed : s.Sealed .symbolic .symbolic) :
    Unforged .symbolic .symbolic log s.ciphertext := by
  intro key nonce bound plaintext decrypted
  obtain ⟨_, encrypted, short⟩ := sealEnvelope_eq_ok.mp sealed.sealed
  simp only [Aead.symbolic, Option.some.injEq] at encrypted
  simp only [Aead.symbolic] at decrypted
  split at decrypted
  · next header =>
    obtain ⟨rest, same⟩ := header
    have limit : maxCiphertextBytes < 256 ^ 8 := by decide
    have fits : bound.length < 256 ^ 8 := by
      have total := congrArg List.length same
      simp only [List.length_append, length_frame] at total
      omega
    have fits' : (frames 4 (aadParts .symbolic s.binding s.generation s.wrappedDek)).length <
        256 ^ 8 := by
      have total := congrArg List.length encrypted
      simp only [List.length_append, length_frame] at total
      omega
    have joined := same.trans encrypted.symm
    simp only [List.append_assoc] at joined
    obtain ⟨keys, joined⟩ := List.append_inj joined
      (key.length_toList.trans s.dek.length_toList.symm)
    obtain ⟨nonces, joined⟩ := List.append_inj joined
      (nonce.length_toList.trans s.nonce.length_toList.symm)
    obtain ⟨bounds, _⟩ := frame_append_inj fits fits' joined
    refine ⟨s, member, (FixedBytes.ext keys).symm, (FixedBytes.ext nonces).symm, ?_, rfl⟩
    rw [aad_eq, bounds]
  · cases decrypted

theorem collisionFree : CollisionFree .symbolic (fun wrapped =>
    ∃ s ∈ sealings .symbolic .symbolic histories, wrapped = s.wrappedDek) := by
  have distinct : ∀ a ∈ sealings .symbolic .symbolic histories,
      ∀ b ∈ sealings .symbolic .symbolic histories,
      digest .symbolic a.wrappedDek = digest .symbolic b.wrappedDek →
      a.wrappedDek = b.wrappedDek := by decide +kernel
  rintro _ _ ⟨a, memberA, rfl⟩ ⟨b, memberB, rfl⟩
  exact distinct a memberA b memberB

end Hostile

open Hostile Contention in
theorem open_accepts_only_authentic_rolled_back :
    ((file old).step .symbolic .symbolic (.openStore 5 protector .sound)).1 = .opened 0 ∧
    ((file mixed).step .symbolic .symbolic (.openStore 5 protector .sound)).1 =
      .failed .storage ∧
    ((file old).step .symbolic .symbolic (.openStore 5 stranger .sound)).1 = .failed .storage ∧
    ∃ s ∈ writings .symbolic .symbolic histories, ∃ store,
      ((file old).step .symbolic .symbolic (.openStore 5 protector .sound)).2.store 0 =
        some store ∧ store.state = .ok s.state := by
  have opens : ((file old).step .symbolic .symbolic (.openStore 5 protector .sound)).1 =
      .opened 0 := by decide +kernel
  obtain ⟨s, member, rows⟩ : ∃ s ∈ writings .symbolic .symbolic histories,
      (file old).disk.rows = [s.row] := by decide +kernel
  have sealed := mem_sealings_of_mem_writings member
  obtain ⟨store, listed, _, written⟩ :=
    open_accepts_only_authentic Aead.symbolic_correct histories rows rfl
      (fun a b ha hb => collisionFree a b
        (ha.elim (fun same => ⟨s, sealed, same⟩) fun found => found)
        (hb.elim (fun same => ⟨s, sealed, same⟩) fun found => found)) opens
  obtain ⟨s', member', _, _, state, _⟩ := written (unforged member (sealed_of_mem_sealings sealed))
  exact ⟨opens, by decide +kernel, by decide +kernel, s', member', store, listed, state⟩

end World

end SecureMessenger
