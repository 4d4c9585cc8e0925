import SecureMessenger.Library.Succession
import SecureMessenger.Persistence.Effect

/-!
# No lost update

The snapshots that take effect in a run form one chain, and the file holds the
last of them. A usable handle caches some member of the chain. A commit compares
every column of its cached row with the file, generations are numbers in the
chain, so the cached snapshot is the last one and the new one comes right after it.

The run has no writer but the store. Of the parts outside the crate two things are
assumed: decryption undoes encryption, and among the platform records with one
binding a wrapped key unwraps to the key that was wrapped or not at all.
-/

namespace SecureMessenger

open Machine Succession

variable {A : Aead} {P : Primitives}

namespace Input

/-- Every input but the replacement of the file. -/
def honest : Input → Bool
  | tamper _ => false
  | _ => true

/-- The platform record a call brings. -/
def protector? : Input → Option StateKeyProtector
  | create _ protector _ _ _ _ _ => some protector
  | openStore _ protector _ => some protector
  | _ => none

end Input

/-- Under one binding, a wrapped key unwraps to the key that was wrapped. -/
def KeysAgree (inputs : List Input) : Prop :=
  ∀ input ∈ inputs, ∀ input' ∈ inputs, ∀ p p',
    input.protector? = some p → input'.protector? = some p' →
    p.expectedBinding = p'.expectedBinding → ∀ dek wrapped dek',
      p.wrapDek dek = .ok wrapped → p'.unwrapDek wrapped = .ok dek' → dek' = dek

theorem KeysAgree.mono {inputs inputs' : List Input} (agree : KeysAgree inputs')
    (part : ∀ input ∈ inputs, input ∈ inputs') : KeysAgree inputs :=
  fun _ member _ member' => agree _ (part _ member) _ (part _ member')

namespace World

variable (A P) in
/-- The snapshots that took effect, in their order. -/
def chain (inputs : List Input) : List StateCache :=
  collect (step A P) (effect A P) initial inputs

variable (A P) in
/-- The snapshot a creation puts into effect. -/
def founding (w : World) (input : Input) : Option StateCache :=
  match input with
  | .create .. => w.effect A P input
  | _ => none

variable (A P) in
/-- The creations that took effect. -/
def creations (inputs : List Input) : List StateCache :=
  collect (step A P) (founding A P) initial inputs

theorem after_concat (inputs : List Input) (input : Input) :
    after A P (inputs ++ [input]) = ((after A P inputs).step A P input).2 :=
  run_concat _ inputs input

theorem after_append (inputs later : List Input) :
    after A P (inputs ++ later) = run (step A P) (after A P inputs) later :=
  run_append _ inputs later

theorem chain_concat (inputs : List Input) (input : Input) :
    chain A P (inputs ++ [input]) =
      chain A P inputs ++ ((after A P inputs).effect A P input).toList :=
  collect_concat _ inputs input

theorem chain_append (inputs later : List Input) :
    chain A P (inputs ++ later) =
      chain A P inputs ++ collect (step A P) (effect A P) (after A P inputs) later :=
  collect_append _ inputs later

/-- The world and its chain. -/
structure Chained (A : Aead) (P : Primitives) (inputs : List Input) (w : World)
    (chain : List StateCache) : Prop where
  numbered : Numbered (fun c => c.generation.toNat) chain
  sealed : ∀ c ∈ chain, c.Sealed A P
  wrapped : ∀ c ∈ chain, ∃ input ∈ inputs, ∃ p, input.protector? = some p ∧
    p.expectedBinding = .ok c.binding ∧ p.wrapDek c.dek = .ok c.wrappedDek
  vacant : chain = [] → w.disk = .empty
  stored : ∀ last, chain.getLast? = some last → w.disk.HasSchema ∧ w.disk.rows = [last.row]
  held : ∀ id store, w.store id = some store → store.poisoned = false → store.cached ∈ chain

namespace Chained

variable {inputs : List Input} {w : World} {chain : List StateCache}

theorem initial : Chained A P [] World.initial [] where
  numbered := numbered_nil
  sealed := by simp
  wrapped := by simp
  vacant _ := rfl
  stored := by simp
  held id store listed := by simp [World.store, handle, World.initial] at listed

/-- A file with the schema belongs to a chain that has begun. -/
theorem exists_last (chained : Chained A P inputs w chain) (schema : w.disk.HasSchema) :
    ∃ last, chain.getLast? = some last := by
  cases found : chain.getLast? with
  | some last => exact ⟨last, rfl⟩
  | none =>
      have vacant := chained.vacant (List.getLast?_eq_none_iff.mp found)
      rw [vacant] at schema
      exact absurd (rfl : StateDb.empty.validateEmptyDatabase = .ok ()) schema.not_empty

/-- A file without the schema belongs to a chain that has not begun. -/
theorem eq_nil (chained : Chained A P inputs w chain)
    (vacant : w.disk.validateEmptyDatabase = .ok ()) : chain = [] := by
  cases found : chain.getLast? with
  | some last => exact absurd vacant (chained.stored last found).1.not_empty
  | none => exact List.getLast?_eq_none_iff.mp found

/-- A commit that passes its comparison was made from the last snapshot. -/
theorem last_of_commit (chained : Chained A P inputs w chain) {id : Nat}
    {store : ClientStateStore} {candidate : StateCache} {db : StateDb}
    (listed : w.store id = some store) (usable : store.poisoned = false)
    (applied : commitIn w.disk store.cached candidate = .ok db) :
    chain.getLast? = some store.cached := by
  obtain ⟨schema, rows, _⟩ := commitIn_spec applied
  obtain ⟨last, found⟩ := chained.exists_last schema
  have same : last.row = store.cached.row :=
    List.singleton_inj.mp ((chained.stored last found).2.symm.trans rows)
  have member := List.mem_of_getLast? found
  have held := chained.held id store listed usable
  have number := congrArg UInt64.toNat (StateCache.eq_of_row same).2.1
  rw [found, chained.numbered.eq_of_number member held number]

/-- A successful open returns the last snapshot. -/
theorem last_of_open (chained : Chained A P inputs w chain) (correct : A.Correct)
    {protector : StateKeyProtector} {cached : StateCache}
    (agree : ∀ input ∈ inputs, ∀ p, input.protector? = some p →
      p.expectedBinding = protector.expectedBinding → ∀ dek wrapped dek',
        p.wrapDek dek = .ok wrapped → protector.unwrapDek wrapped = .ok dek' → dek' = dek)
    (found : openIn A P w.disk protector = .ok cached) : chain.getLast? = some cached := by
  obtain ⟨schema, rows, expected, unwrapped, opens⟩ := openIn_spec found
  obtain ⟨last, ends⟩ := chained.exists_last schema
  have same : last.row = cached.row :=
    List.singleton_inj.mp ((chained.stored last ends).2.symm.trans rows)
  have member := List.mem_of_getLast? ends
  obtain ⟨binding, generation, wrappedDek, nonce, ciphertext⟩ := StateCache.eq_of_row same
  obtain ⟨input, listed, p, brings, binding', wraps⟩ := chained.wrapped last member
  have dek : cached.dek = last.dek :=
    agree input listed p brings (by rw [binding', expected, binding]) _ _ _ wraps
      (wrappedDek ▸ unwrapped)
  have opens' : last.Opens A P := (chained.sealed last member).opens correct
  have state : last.state = cached.state := by
    unfold StateCache.Opens at opens opens'
    rw [binding, generation, wrappedDek, nonce, ciphertext, ← dek, opens] at opens'
    exact (Except.ok.inj opens').symm
  rw [ends]
  cases last
  cases cached
  simp_all

/-- A platform that wrapped the key of a link is still among the inputs. -/
theorem wrapped_concat (chained : Chained A P inputs w chain) (input : Input) :
    ∀ c ∈ chain, ∃ input' ∈ inputs ++ [input], ∃ p, input'.protector? = some p ∧
      p.expectedBinding = .ok c.binding ∧ p.wrapDek c.dek = .ok c.wrappedDek := by
  intro c member
  obtain ⟨input', listed, found⟩ := chained.wrapped c member
  exact ⟨input', List.mem_append_left _ listed, found⟩

/-- A step that leaves the file alone adds no link; what it reads is one. -/
theorem unchanged (chained : Chained A P inputs w chain) (input : Input) {w' : World}
    {news : Option StateCache} (disk : w'.disk = w.disk) (evolves : Evolves w w' news)
    (fresh : ∀ c, news = some c → c ∈ chain) : Chained A P (inputs ++ [input]) w' chain where
  numbered := chained.numbered
  sealed := chained.sealed
  wrapped := chained.wrapped_concat input
  vacant empty := disk.trans (chained.vacant empty)
  stored last ends := disk ▸ chained.stored last ends
  held := evolves.held fresh chained.held

/-- The chain and its world, one input further. -/
theorem step (chained : Chained A P inputs w chain) (correct : A.Correct) {input : Input}
    (honest : input.honest = true) (agree : KeysAgree (inputs ++ [input])) :
    Chained A P (inputs ++ [input]) (w.step A P input).2
      (chain ++ (w.effect A P input).toList) := by
  have done := step_effect A P w input
  generalize (w.step A P input).2 = w' at done ⊢
  generalize w.effect A P input = taken at done ⊢
  cases done with
  | idle disk evolves =>
      rw [Option.toList_none, List.append_nil]
      exact chained.unchanged _ disk evolves (by simp)
  | opened found disk evolves =>
      have last := chained.last_of_open correct
        (fun input' listed p brings binding => agree input' (List.mem_append_left _ listed) _
          (List.mem_append_right _ (List.mem_singleton.mpr rfl)) p _ brings rfl binding) found
      rw [Option.toList_none, List.append_nil]
      refine chained.unchanged _ disk evolves ?_
      rintro c ⟨rfl⟩
      exact List.mem_of_getLast? last
  | tampered => cases honest
  | @created _ protector _ _ _ _ _ cached _ prepared applied evolves =>
      obtain ⟨sealed, first, _, expected, wraps⟩ := prepareCreate_spec prepared
      obtain ⟨vacant, schema, rows⟩ := createIn_spec first applied
      obtain rfl := chained.eq_nil vacant
      rw [Option.toList_some, List.nil_append]
      refine
        { numbered := numbered_nil.concat (congrArg UInt64.toNat first)
          sealed := by simpa using sealed
          wrapped := ?_
          vacant := fun empty => by cases empty
          stored := ?_
          held := evolves.held (by simp) fun id store listed usable =>
            absurd (chained.held id store listed usable) List.not_mem_nil }
      · intro c member
        obtain rfl := List.mem_singleton.mp member
        exact ⟨_, List.mem_append_right _ (List.mem_singleton.mpr rfl), protector, rfl,
          expected, wraps⟩
      · rintro last ⟨rfl⟩
        exact ⟨schema, rows⟩
  | @committed id _ _ _ store candidate _ listed usable prepared applied evolves =>
      obtain ⟨sealed, succeeds, _⟩ := prepareCommit_spec prepared
      have ends := chained.last_of_commit listed usable applied
      obtain ⟨schema, rows, changed⟩ := commitIn_spec applied
      rw [succeeds.row] at changed
      have member := List.mem_of_getLast? ends
      rw [Option.toList_some]
      refine
        { numbered := chained.numbered.concat ?_
          sealed := ?_
          wrapped := ?_
          vacant := fun empty => by simp at empty
          stored := ?_
          held := evolves.held (by simp) fun id store listed usable =>
            List.mem_append_left _ (chained.held id store listed usable) }
      · rw [succeeds.generation, chained.numbered.number_last ends]
      · intro c member
        obtain old | new := List.mem_append.mp member
        · exact chained.sealed c old
        · obtain rfl := List.mem_singleton.mp new
          exact sealed
      · intro c member'
        obtain old | new := List.mem_append.mp member'
        · exact chained.wrapped_concat _ c old
        · obtain rfl := List.mem_singleton.mp new
          rw [succeeds.binding, succeeds.dek, succeeds.wrappedDek]
          exact chained.wrapped_concat _ _ member
      · intro last found
        rw [List.getLast?_concat] at found
        obtain rfl := Option.some.inj found
        rw [changed]
        exact ⟨schema.withRows _, rfl⟩

end Chained

section Runs

variable {inputs : List Input} {id : Nat} {state : Bytes} {nonce : Option StateNonce}
variable {storage : Storage}

theorem chained_after (correct : A.Correct) (honest : ∀ input ∈ inputs, input.honest = true)
    (agree : KeysAgree inputs) : Chained A P inputs (after A P inputs) (chain A P inputs) := by
  induction inputs using List.reverseRecOn with
  | nil => exact .initial
  | append_singleton inputs input ih =>
      have part : ∀ input' ∈ inputs, input' ∈ inputs ++ [input] :=
        fun _ member => List.mem_append_left _ member
      rw [after_concat, chain_concat]
      exact (ih (fun _ member => honest _ (part _ member)) (agree.mono part)).step correct
        (honest input (by simp)) agree

/-- Only the first snapshot of the chain is a creation. -/
theorem creations_eq (correct : A.Correct) (honest : ∀ input ∈ inputs, input.honest = true)
    (agree : KeysAgree inputs) : creations A P inputs = (chain A P inputs).take 1 := by
  induction inputs using List.reverseRecOn with
  | nil => rfl
  | append_singleton inputs input ih =>
      have part : ∀ input' ∈ inputs, input' ∈ inputs ++ [input] :=
        fun _ member => List.mem_append_left _ member
      have chained := chained_after (P := P) correct (fun _ member => honest _ (part _ member))
        (agree.mono part)
      rw [chain_concat, creations, collect_concat]
      have before : collect (step A P) (founding A P) initial inputs =
          (chain A P inputs).take 1 :=
        ih (fun _ member => honest _ (part _ member)) (agree.mono part)
      rw [before]
      have done := step_effect A P (after A P inputs) input
      show _ ++ (founding A P (after A P inputs) input).toList = _
      generalize ((after A P inputs).step A P input).2 = w' at done
      unfold founding
      generalize (after A P inputs).effect A P input = taken at done ⊢
      cases done with
      | idle => cases input <;> simp
      | opened => simp
      | tampered => simp
      | created prepared applied =>
          obtain ⟨_, first, _⟩ := prepareCreate_spec prepared
          rw [chained.eq_nil (createIn_spec first applied).1]
          rfl
      | committed listed usable prepared applied =>
          have ends := chained.last_of_commit listed usable applied
          obtain ⟨front, split⟩ := List.getLast?_eq_some_iff.mp ends
          rw [split]
          cases front <;> simp

/-- A commit that takes effect was made from a usable handle. -/
theorem committed_of_effect {w : World} {snapshot : StateCache}
    (taken : w.effect A P (.commit id state nonce storage) = some snapshot) :
    ∃ store, w.store id = some store ∧ store.poisoned = false ∧
      prepareCommit A P store.cached state nonce = .ok snapshot ∧
      commitIn w.disk store.cached snapshot =
        .ok (w.step A P (.commit id state nonce storage)).2.disk := by
  have done := step_effect A P w (.commit id state nonce storage)
  rw [taken] at done
  generalize (w.step A P (.commit id state nonce storage)).2 = w' at done ⊢
  cases done with
  | committed listed usable prepared applied => exact ⟨_, listed, usable, prepared, applied⟩

/-- A commit that returns success has taken effect. -/
theorem effect_of_committed {w : World}
    (done : (w.step A P (.commit id state nonce storage)).1 = .committed) :
    ∃ snapshot, w.effect A P (.commit id state nonce storage) = some snapshot := by
  obtain ⟨store, snapshot, listed, usable, prepared, applied, _⟩ := commit_committed done
  refine ⟨snapshot, ?_⟩
  rw [effect_of_ne (commitIn_ne (prepareCommit_spec prepared).2.1 applied)]
  simp only [sealing, listed, usable, prepared, Bool.false_eq_true, if_false]
  rfl

theorem state_of_usable {store : ClientStateStore} (usable : store.poisoned = false) :
    store.state = .ok store.cached.state ∧ store.generation = .ok store.cached.generation := by
  simp [ClientStateStore.state, ClientStateStore.generation, ClientStateStore.ensureUsable,
    Fallible.rejectIf, usable]

theorem error_of_poisoned {store : ClientStateStore} (poisoned : store.poisoned = true) :
    store.state = .error .storage ∧ store.generation = .error .storage ∧
      store.binding = .error .storage := by
  simp [ClientStateStore.state, ClientStateStore.generation, ClientStateStore.binding,
    ClientStateStore.ensureUsable, Fallible.rejectIf, poisoned]

/-- After a failed commit its handle is spent for the rest of the run. -/
theorem spent_after {w : World} (spent : w.Spent id) (later : List Input) :
    (run (step A P) w later).Spent id :=
  invariant_run (fun w : World => w.Spent id)
    (fun w input spent => by
      obtain ⟨_, evolves⟩ := (step_effect A P w input).evolves
      exact evolves.spent spent) spent later

/-- A spent handle commits nothing and changes nothing. -/
theorem commit_of_spent {w : World} (spent : w.Spent id) :
    (w.step A P (.commit id state nonce storage)).1 ≠ .committed ∧
      (w.step A P (.commit id state nonce storage)).2.disk = w.disk ∧
      (∀ store, w.store id = some store →
        (w.step A P (.commit id state nonce storage)).1 = .failed .storage) := by
  cases held : w.handle id with
  | none =>
      have absent : w.store id = none := by
        rw [store, held]
        rfl
      simp [step, commit, held, absent]
  | some h =>
      have poisoned := spent.2 h.store (store_of_handle held)
      simp [step, commit, held, ClientStateStore.commit, poisoned]

/-- What replaces the last snapshot of a run is a commit from a handle that had
that snapshot as its state. -/
theorem replaced_by_commit (correct : A.Correct) {later : List Input}
    (honest : ∀ input ∈ inputs ++ later, input.honest = true)
    (agree : KeysAgree (inputs ++ later)) {last next : StateCache} {more : List StateCache}
    (ends : (chain A P inputs).getLast? = some last)
    (noted : collect (step A P) (effect A P) (after A P inputs) later = next :: more) :
    ∃ between id state nonce storage rest store,
      later = between ++ .commit id state nonce storage :: rest ∧
      (after A P (inputs ++ between)).effect A P (.commit id state nonce storage) = some next ∧
      (after A P (inputs ++ between)).store id = some store ∧ store.cached = last ∧
      store.state = .ok last.state := by
  obtain ⟨between, input, rest, rfl, silent, observed⟩ := collect_cons noted
  have part : ∀ input' ∈ inputs ++ between, input' ∈ inputs ++ (between ++ input :: rest) := by
    intro input' member
    rw [← List.append_assoc]
    exact List.mem_append_left _ member
  have chained := chained_after (P := P) correct (fun _ member => honest _ (part _ member))
    (agree.mono part)
  rw [chain_append, silent, List.append_nil] at chained
  rw [← after_append] at observed
  have done := step_effect A P (after A P (inputs ++ between)) input
  rw [observed] at done
  generalize ((after A P (inputs ++ between)).step A P input).2 = w' at done
  cases done with
  | created prepared applied =>
      obtain ⟨_, first, _⟩ := prepareCreate_spec prepared
      rw [chained.eq_nil (createIn_spec first applied).1] at ends
      cases ends
  | committed listed usable prepared applied =>
      have same := (chained.last_of_commit listed usable applied).symm.trans ends
      have cached := Option.some.inj same
      refine ⟨between, _, _, _, _, rest, _, rfl, observed, listed, cached, ?_⟩
      rw [← cached]
      exact (state_of_usable usable).1

/-- No update is lost and what was acknowledged is durable, in every interleaving
of calls, dropped handles and crashes with every history of storage faults.

At most one creation takes effect. The snapshots that take effect are numbered from
one on without gap or repeat, and the file holds the last of them. A commit takes
effect only from a handle whose state is the last snapshot. A commit that returned
success is in the chain to the end, and what comes right after it there was
committed from a handle that had it as its state. A successful open returns the
plaintext and the generation of the last snapshot. After a commit that returned an
error its handle, as long as it exists, answers every query and every commit with
an error, and nothing it is asked changes the file. -/
theorem no_lost_update (correct : A.Correct) {inputs : List Input}
    (honest : ∀ input ∈ inputs, input.honest = true) (agree : KeysAgree inputs) :
    (creations A P inputs).length ≤ 1 ∧
    (chain A P inputs).map (fun c => c.generation.toNat) =
      List.range' 1 (chain A P inputs).length ∧
    (after A P inputs).disk.rows = (chain A P inputs).getLast?.toList.map StateCache.row ∧
    (∀ earlier id state nonce storage later,
      inputs = earlier ++ .commit id state nonce storage :: later →
      ∀ snapshot, (after A P earlier).effect A P (.commit id state nonce storage) = some snapshot →
        snapshot.state = state ∧
        ∃ store, (after A P earlier).store id = some store ∧
          (chain A P earlier).getLast? = some store.cached ∧
          store.state = .ok store.cached.state) ∧
    (∀ earlier id state nonce storage later,
      inputs = earlier ++ .commit id state nonce storage :: later →
      ((after A P earlier).step A P (.commit id state nonce storage)).1 = .committed →
        ∃ snapshot rest, snapshot.state = state ∧
          chain A P inputs = chain A P earlier ++ snapshot :: rest ∧
          (rest = [] → (after A P inputs).disk.rows = [snapshot.row]) ∧
          ∀ next more, rest = next :: more →
            ∃ between id' state' nonce' storage' afterwards store,
              later = between ++ .commit id' state' nonce' storage' :: afterwards ∧
              (after A P (earlier ++ .commit id state nonce storage :: between)).effect A P
                (.commit id' state' nonce' storage') = some next ∧
              (after A P (earlier ++ .commit id state nonce storage :: between)).store id' =
                some store ∧
              store.cached = snapshot ∧ store.state = .ok snapshot.state) ∧
    (∀ earlier process protector storage later id,
      inputs = earlier ++ .openStore process protector storage :: later →
      ((after A P earlier).step A P (.openStore process protector storage)).1 = .opened id →
        ∃ store last,
          (after A P (earlier ++ [.openStore process protector storage])).store id = some store ∧
          (chain A P earlier).getLast? = some last ∧ store.state = .ok last.state ∧
          store.generation = .ok last.generation) ∧
    (∀ earlier id state nonce storage later e,
      inputs = earlier ++ .commit id state nonce storage :: later →
      ((after A P earlier).step A P (.commit id state nonce storage)).1 = .failed e →
        (∀ store, (after A P inputs).store id = some store →
          store.state = .error .storage ∧ store.generation = .error .storage ∧
            store.binding = .error .storage) ∧
        ∀ state' nonce' storage',
          ((after A P inputs).step A P (.commit id state' nonce' storage')).1 ≠ .committed ∧
          ((after A P inputs).step A P (.commit id state' nonce' storage')).2.disk =
            (after A P inputs).disk ∧
          ∀ store, (after A P inputs).store id = some store →
            ((after A P inputs).step A P (.commit id state' nonce' storage')).1 =
              .failed .storage) := by
  have chained := chained_after (P := P) correct honest agree
  -- The invariant at any earlier point of the run.
  have upTo : ∀ {earlier : List Input} {later : List Input}, inputs = earlier ++ later →
      Chained A P earlier (after A P earlier) (chain A P earlier) := by
    rintro earlier later rfl
    exact chained_after correct (fun _ member => honest _ (List.mem_append_left _ member))
      (agree.mono fun _ member => List.mem_append_left _ member)
  refine ⟨?_, chained.numbered, ?_, ?_, ?_, ?_, ?_⟩
  · rw [creations_eq correct honest agree, List.length_take]
    exact Nat.min_le_left _ _
  · cases ends : (chain A P inputs).getLast? with
    | some last => exact (chained.stored last ends).2
    | none =>
        rw [chained.vacant (List.getLast?_eq_none_iff.mp ends)]
        rfl
  · intro earlier id state nonce storage later split snapshot taken
    obtain ⟨store, listed, usable, prepared, applied⟩ := committed_of_effect taken
    exact ⟨(prepareCommit_spec prepared).2.2.1, store, listed,
      (upTo split).last_of_commit listed usable applied, (state_of_usable usable).1⟩
  · intro earlier id state nonce storage later split done
    obtain ⟨snapshot, taken⟩ := effect_of_committed done
    obtain ⟨_, _, _, prepared, _⟩ := committed_of_effect taken
    have joined : inputs = (earlier ++ [.commit id state nonce storage]) ++ later := by
      rw [split, List.append_assoc]
      rfl
    have reached : chain A P (earlier ++ [.commit id state nonce storage]) =
        chain A P earlier ++ [snapshot] := by
      rw [chain_concat, taken]
      rfl
    have ends : (chain A P (earlier ++ [.commit id state nonce storage])).getLast? =
        some snapshot := by
      rw [reached, List.getLast?_concat]
    refine ⟨snapshot, collect (step A P) (effect A P)
      (after A P (earlier ++ [.commit id state nonce storage])) later,
      (prepareCommit_spec prepared).2.2.1, ?_, ?_, ?_⟩
    · rw [joined, chain_append, reached, List.append_assoc]
      rfl
    · intro nothing
      have last : (chain A P inputs).getLast? = some snapshot := by
        rw [joined, chain_append, nothing, List.append_nil]
        exact ends
      exact (chained.stored snapshot last).2
    · intro next more noted
      obtain ⟨between, id', state', nonce', storage', rest, store, rfl, replaced⟩ :=
        replaced_by_commit correct (joined ▸ honest) (joined ▸ agree) ends noted
      rw [List.append_assoc] at replaced
      exact ⟨between, id', state', nonce', storage', rest, store, rfl, replaced⟩
  · intro earlier process protector storage later id split opened
    obtain ⟨cached, found, listed⟩ := openStore_opened opened
    have last := (upTo split).last_of_open correct
      (fun input member p brings binding => agree input (by rw [split]; simp [member]) _
        (by rw [split]; exact List.mem_append_right _ (List.mem_cons_self ..)) p protector brings
        rfl binding) found
    rw [after_concat]
    exact ⟨_, cached, listed, last, state_of_usable rfl⟩
  · intro earlier id state nonce storage later e split failed
    obtain ⟨store, listed, poisoned⟩ := commit_failed failed
    have spent : ((after A P earlier).step A P (.commit id state nonce storage)).2.Spent id := by
      obtain ⟨h, held, _⟩ := Option.map_eq_some_iff.mp listed
      refine ⟨handle_lt held, ?_⟩
      intro store' listed'
      rw [listed] at listed'
      cases listed'
      exact poisoned
    have still : (after A P inputs).Spent id := by
      rw [split, after_append]
      exact spent_after spent later
    exact ⟨fun store listed => error_of_poisoned (still.2 store listed),
      fun state' nonce' storage' => commit_of_spent still⟩

end Runs

namespace Contention

def protector : StateKeyProtector := .symbolic ⟨.fill 16 1, .fill 16 2⟩

/-- Two handles read the first snapshot. The `COMMIT` of one takes effect but reports
an error, and the other comes too late. A third process reads what is there, commits
and dies. -/
def inputs : List Input :=
  [.create 0 protector .empty [10] (some (.fill 32 3)) (some (.fill 24 4)) .sound,
    .openStore 1 protector .sound,
    .commit 0 [11] (some (.fill 24 5)) (.commitError true),
    .commit 1 [12] (some (.fill 24 6)) .sound,
    .openStore 2 protector .sound,
    .commit 2 [13] (some (.fill 24 7)) .sound,
    .crash 2,
    .openStore 3 protector .sound]

theorem keysAgree : KeysAgree inputs := by
  have only : ∀ input ∈ inputs, ∀ p, input.protector? = some p → p = protector := by
    simp [inputs, Input.protector?, eq_comm]
  intro input member input' member' p p' brings brings' _ dek wrapped dek' wraps unwraps
  obtain rfl := only input member p brings
  obtain rfl := only input' member' p' brings'
  exact StateKeyProtector.symbolic_unwrapDek wraps unwraps

end Contention

open Contention in
theorem no_lost_update_contention :
    (trace (step .symbolic .symbolic) initial inputs).map Prod.snd =
      [.opened 0, .opened 1, .failed .storage, .failed .storage, .opened 2, .committed, .silent,
        .opened 3] ∧
    ((after .symbolic .symbolic inputs).store 3).map (fun store => store.cached.state) =
      some [13] ∧
    (creations .symbolic .symbolic inputs).length ≤ 1 :=
  ⟨by decide +kernel, by decide +kernel,
    (no_lost_update Aead.symbolic_correct (by decide) keysAgree).1⟩

end World

end SecureMessenger
