import Mathlib.Order.Basic
import SecureMessenger.Relay.Invariant
import SecureMessenger.Capability.Authority

/-!
# The life cycle of a mailbox

A queue is absent until it is registered, live while it has a mailbox row, and
retired when it has none and its digest is among the retired ones. The phases only
move forward, for any clock values, any requests and any digest function. Two
queues with the same digest can only make an absent queue retired before it was
ever live; a live mailbox is not touched by the deletion of another one.

Retirement is recorded in a table that only registration consults. That the other
operations fail as well follows from the missing mailbox row.
-/

namespace SecureMessenger

open Machine

variable {P : Primitives}

inductive Phase
  | absent
  | live
  | retired
deriving DecidableEq, Repr

def Phase.rank : Phase → Nat
  | absent => 0
  | live => 1
  | retired => 2

namespace Mailbox

variable {m m' : Mailbox}

def phase (m : Mailbox) : Phase :=
  if m.rows ≠ [] then .live else if m.retired then .retired else .absent

theorem phase_eq_live : m.phase = .live ↔ m.rows ≠ [] := by
  rw [phase]
  split
  · simpa
  · split <;> simp_all

theorem phase_eq_retired : m.phase = .retired ↔ m.rows = [] ∧ m.retired = true := by
  rw [phase]
  split
  · simp_all
  · split <;> simp_all

theorem rows_of_absent (absent : m.phase = .absent) : ¬ m.rows ≠ [] := by
  intro live
  rw [phase_eq_live.mpr live] at absent
  cases absent

/-- What is left of a retired mailbox. -/
theorem WellFormed.gone (sound : m.WellFormed) (retired : m.phase = .retired) : m.Gone := by
  obtain ⟨noRow, retired⟩ := phase_eq_retired.mp retired
  obtain ⟨noMessages, noTombstones, noNonces⟩ := sound.childless noRow
  exact ⟨noRow, noMessages, noTombstones, noNonces, retired⟩

theorem Gone.phase (gone : m.Gone) : m.phase = .retired :=
  phase_eq_retired.mpr ⟨gone.noRow, gone.retired⟩

/-- A step keeps the row of a live mailbox or retires the mailbox. -/
theorem Effect.rows {call : Call P} {reply : Reply} (effect : Effect P m call reply m')
    (live : m.rows ≠ []) : m'.rows = m.rows ∨ m'.Gone := by
  cases effect with
  | refused | stored | duplicate | fetched | alreadyDeleted | deleted => exact .inl rfl
  | registered _ _ _ _ _ _ absent => exact absurd absent live
  | registeredAgain => exact .inl (rows_noteRegistration _ _ _)
  | mailboxDeleted => exact .inr (gone_retire _)

theorem Bystander.rows {collision : Prop} {now : UInt64}
    (bystander : Bystander collision now m m') : m'.rows = m.rows := by
  cases bystander <;> rfl

/-- A deletion removes the one row there is. -/
theorem WellFormed.deleted_eq_true (sound : m.WellFormed) {request : DeleteMailboxRequest}
    {now : UInt64} {deleted : Bool}
    (effect : Effect P m (.deleteMailbox request now) (.ok (.mailboxDeleted deleted)) m') :
    deleted = true := by
  cases effect with
  | mailboxDeleted _ _ _ authorised =>
      have live := List.length_pos_of_ne_nil authorised.live
      have single := sound.single
      have one : m.rows.length = 1 := by omega
      simp [one]

/-- Live, or retired after having been live. -/
def Started (m : Mailbox) : Prop := m.rows ≠ [] ∨ m.Gone

theorem Started.keeps {call : Call P} {reply : Reply} (started : m.Started)
    (effect : Effect P m call reply m') : m'.Started := by
  obtain live | gone := started
  · obtain same | gone := effect.rows live
    · exact .inl (same ▸ live)
    · exact .inr gone
  · rw [(gone.refuses effect).2]
    exact .inr gone

theorem Started.stands {collision : Prop} {now : UInt64} (started : m.Started)
    (bystander : Bystander collision now m m') : m'.Started := by
  obtain live | gone := started
  · exact .inl (bystander.rows ▸ live)
  · exact .inr (gone.stands bystander)

end Mailbox

namespace Relay

/-- At most once in a run with arbitrary clocks: the mark does not mention time. -/
def onceEver {accepts : Call P × Reply → Bool} {mark : Mailbox → Prop} (q : QueueId)
    (keeps : ∀ {m call reply m'}, mark m → Mailbox.Effect P m call reply m' → mark m')
    (stands : ∀ {m collision now m'}, mark m → Mailbox.Bystander collision now m m' → mark m')
    (addressed : ∀ {call reply}, accepts (call, reply) = true → call.queueId? = some q)
    (marks : ∀ {m call reply m'}, Mailbox.Effect P m call reply m' →
      accepts (call, reply) = true → mark m')
    (blocks : ∀ {m call reply m'}, mark m → Mailbox.Effect P m call reply m' →
      accepts (call, reply) = true → False) :
    Once (Relay.step P) (fun _ => 0) accepts where
  invariant := Relay.Current
  mark _ r := mark (r.mailbox P q)
  holds r call current := current_step current call
  marks := by
    intro r call current accepted
    exact marks (r.own_effect call (addressed accepted)) accepted
  keeps := by
    intro _ r call current marked _
    obtain ⟨_, effect⟩ | ⟨_, bystander⟩ := step_view current q call
    · exact keeps marked effect
    · exact stands marked bystander
  blocks := by
    intro _ r call current marked _
    rw [Bool.eq_false_iff]
    intro accepted
    exact blocks marked (r.own_effect call (addressed accepted)) accepted

/-- A registration of this queue that created its mailbox. -/
def creates (q : QueueId) : Call P × Reply → Bool
  | (.register request _, .ok (.registered true)) => request.queueId = q
  | _ => false

/-- A successful deletion of this queue. -/
def removes (q : QueueId) : Call P × Reply → Bool
  | (.deleteMailbox request _, .ok (.mailboxDeleted _)) => request.queueId = q
  | _ => false

theorem creates_iff {q : QueueId} {call : Call P} {reply : Reply} :
    creates q (call, reply) = true ↔
      ∃ request now, call = .register request now ∧ reply = .ok (.registered true) ∧
        request.queueId = q := by
  constructor
  · intro h
    unfold creates at h
    split at h
    · rename_i request now same
      cases same
      exact ⟨request, now, rfl, rfl, of_decide_eq_true h⟩
    · cases h
  · rintro ⟨request, now, rfl, rfl, own⟩
    exact decide_eq_true own

theorem removes_iff {q : QueueId} {call : Call P} {reply : Reply} :
    removes q (call, reply) = true ↔
      ∃ request now deleted, call = .deleteMailbox request now ∧
        reply = .ok (.mailboxDeleted deleted) ∧ request.queueId = q := by
  constructor
  · intro h
    unfold removes at h
    split at h
    · rename_i request now deleted same
      cases same
      exact ⟨request, now, deleted, rfl, rfl, of_decide_eq_true h⟩
    · cases h
  · rintro ⟨request, now, deleted, rfl, rfl, own⟩
    exact decide_eq_true own

theorem started_of_creates {q : QueueId} {m m' : Mailbox} {call : Call P} {reply : Reply}
    (effect : Mailbox.Effect P m call reply m') (accepted : creates q (call, reply) = true) :
    m'.Started := by
  obtain ⟨request, now, rfl, rfl, _⟩ := creates_iff.mp accepted
  cases effect with
  | registered => exact .inl (List.cons_ne_nil _ _)

theorem not_creates_of_started {q : QueueId} {m m' : Mailbox} {call : Call P} {reply : Reply}
    (started : m.Started) (effect : Mailbox.Effect P m call reply m')
    (accepted : creates q (call, reply) = true) : False := by
  obtain ⟨request, now, rfl, rfl, _⟩ := creates_iff.mp accepted
  cases effect with
  | registered _ _ _ _ _ unretired absent =>
      obtain live | gone := started
      · exact live absent
      · rw [gone.retired] at unretired
        cases unretired

theorem gone_of_removes {q : QueueId} {m m' : Mailbox} {call : Call P} {reply : Reply}
    (effect : Mailbox.Effect P m call reply m') (accepted : removes q (call, reply) = true) :
    m'.Gone := by
  obtain ⟨request, now, deleted, rfl, rfl, _⟩ := removes_iff.mp accepted
  cases effect with
  | mailboxDeleted => exact Mailbox.gone_retire _

theorem not_removes_of_gone {q : QueueId} {m m' : Mailbox} {call : Call P} {reply : Reply}
    (gone : m.Gone) (effect : Mailbox.Effect P m call reply m')
    (accepted : removes q (call, reply) = true) : False := by
  obtain ⟨request, now, deleted, rfl, rfl, _⟩ := removes_iff.mp accepted
  obtain ⟨⟨e, refused⟩, _⟩ := gone.refuses effect
  cases refused

theorem gone_keeps {m m' : Mailbox} {call : Call P} {reply : Reply} (gone : m.Gone)
    (effect : Mailbox.Effect P m call reply m') : m'.Gone := by
  rw [(gone.refuses effect).2]
  exact gone

def onceCreated (P : Primitives) (q : QueueId) :
    Once (Relay.step P) (fun _ => 0) (creates q) :=
  onceEver q Mailbox.Started.keeps Mailbox.Started.stands
    (fun accepted => by
      obtain ⟨request, now, rfl, _, own⟩ := creates_iff.mp accepted
      exact congrArg some own)
    started_of_creates not_creates_of_started

def onceRemoved (P : Primitives) (q : QueueId) :
    Once (Relay.step P) (fun _ => 0) (removes q) :=
  onceEver q gone_keeps (fun gone bystander => gone.stands bystander)
    (fun accepted => by
      obtain ⟨request, now, _, rfl, _, own⟩ := removes_iff.mp accepted
      exact congrArg some own)
    gone_of_removes not_removes_of_gone

section Runs

variable {q : QueueId} {calls : List (Call P)}

theorem after_append (calls later : List (Call P)) :
    Relay.after P (calls ++ later) = run (Relay.step P) (Relay.after P calls) later :=
  run_append _ calls later

/-- The row of a live mailbox stays as it is until the mailbox is retired. -/
theorem rows_after (live : ((Relay.after P calls).mailbox P q).rows ≠ [])
    (later : List (Call P)) :
    ((Relay.after P (calls ++ later)).mailbox P q).rows =
      ((Relay.after P calls).mailbox P q).rows ∨
    ((Relay.after P (calls ++ later)).mailbox P q).Gone := by
  rw [after_append]
  refine run_mailbox (fun m => m.rows = ((Relay.after P calls).mailbox P q).rows ∨ m.Gone) ?_ ?_
    (current_after calls) (.inl rfl) later
  · rintro m call reply m' (same | gone) effect
    · exact (effect.rows (same ▸ live)).imp_left fun same' => same'.trans same
    · exact .inr (gone_keeps gone effect)
  · rintro m now m' (same | gone) bystander
    · exact .inl (bystander.rows.trans same)
    · exact .inr (gone.stands bystander)

/-- A retired mailbox stays retired. -/
theorem gone_after (retired : ((Relay.after P calls).mailbox P q).phase = .retired)
    (later : List (Call P)) :
    ((Relay.after P (calls ++ later)).mailbox P q).Gone := by
  rw [after_append]
  exact run_mailbox Mailbox.Gone (fun gone effect => gone_keeps gone effect)
    (fun gone bystander => gone.stands bystander) (current_after calls)
    ((wellFormed_after calls q).gone retired) later

theorem phase_after (calls later : List (Call P)) (q : QueueId) :
    ((Relay.after P calls).mailbox P q).phase.rank ≤
      ((Relay.after P (calls ++ later)).mailbox P q).phase.rank := by
  cases now : ((Relay.after P calls).mailbox P q).phase with
  | absent => exact Nat.zero_le _
  | live =>
      have live := Mailbox.phase_eq_live.mp now
      obtain same | gone := rows_after live later
      · rw [Mailbox.phase_eq_live.mpr (same ▸ live)]
      · rw [gone.phase]
        exact Nat.le_succ 1
  | retired => rw [(gone_after now later).phase]

/-- Every successful deletion finds the one row of its mailbox. -/
theorem removed_true {entry : Call P × Reply} (member : entry ∈ history P calls)
    (removed : removes q entry = true) : entry.2 = .ok (.mailboxDeleted true) := by
  obtain ⟨call, reply⟩ := entry
  obtain ⟨request, now, deleted, rfl, rfl, own⟩ := removes_iff.mp removed
  obtain ⟨before, _, m, m', _, rfl, rfl, effect⟩ := history_effect member (congrArg some own)
  rw [(wellFormed_after before q).deleted_eq_true effect]

/-- A live mailbox refuses a registration with different keys. -/
theorem register_refused {request : MailboxRegistration P} {now : UInt64} {row : MailboxRow}
    (own : request.queueId = q) (live : ((Relay.after P calls).mailbox P q).rows = [row])
    (different : ¬ Mailbox.SameKeys row request) :
    (∃ e, ((Relay.after P calls).step P (.register request now)).1 = .error e) ∧
      ((Relay.after P calls).step P (.register request now)).2 = Relay.after P calls := by
  have refused : ∃ e, ((Relay.after P calls).step P (.register request now)).1 = .error e := by
    have effect := (Relay.after P calls).own_effect (.register request now) (congrArg some own)
    generalize ((Relay.after P calls).step P (.register request now)).1 = reply at effect ⊢
    generalize ((Relay.after P calls).step P (.register request now)).2.mailbox P q = m' at effect
    cases effect with
    | refused _ e => exact ⟨e, rfl⟩
    | registered _ _ _ _ _ _ absent =>
        rw [live] at absent
        cases absent
    | registeredAgain _ _ _ _ _ _ row' live' same =>
        rw [live] at live'
        cases live'
        exact absurd same different
  obtain ⟨e, failed⟩ := refused
  exact ⟨⟨e, failed⟩, step_error failed⟩

/-- The life cycle of a mailbox, over every run and for any digest. The phases of
a queue never go backwards; it is created at most once, and then it is no longer
absent; while it is live its row and thus its keys stay the same and a
registration with other keys fails and changes nothing; it is deleted at most
once, and then the answer is `true` and the queue is retired; once it is retired
it has no row in any of the four tables that name its queue, and no call addressed
to it succeeds. -/
theorem mailbox_life_cycle (calls later : List (Call P)) (q : QueueId) :
    (Relay.empty.mailbox P q).phase = .absent ∧
    ((Relay.after P calls).mailbox P q).phase.rank ≤
      ((Relay.after P (calls ++ later)).mailbox P q).phase.rank ∧
    (history P calls).countP (creates q) ≤ 1 ∧
    ((∃ entry ∈ history P calls, creates q entry = true) →
      ((Relay.after P calls).mailbox P q).phase ≠ .absent) ∧
    (((Relay.after P calls).mailbox P q).phase = .live →
      (((Relay.after P (calls ++ later)).mailbox P q).phase = .live →
        ((Relay.after P (calls ++ later)).mailbox P q).rows =
          ((Relay.after P calls).mailbox P q).rows) ∧
      ∃ row, ((Relay.after P calls).mailbox P q).rows = [row] ∧
        ∀ (request : MailboxRegistration P) (now : UInt64), request.queueId = q →
          (request.sendKey.asBytes, request.receiveKey.asBytes, request.manageKey.asBytes) ≠
            (row.sendKey, row.receiveKey, row.manageKey) →
          (∃ e, ((Relay.after P calls).step P (.register request now)).1 = .error e) ∧
            ((Relay.after P calls).step P (.register request now)).2 = Relay.after P calls) ∧
    (history P calls).countP (removes q) ≤ 1 ∧
    (∀ entry ∈ history P calls, removes q entry = true →
      entry.2 = .ok (.mailboxDeleted true) ∧
      ((Relay.after P calls).mailbox P q).phase = .retired) ∧
    (((Relay.after P calls).mailbox P q).phase = .retired →
      (∀ row ∈ (Relay.after P (calls ++ later)).image.tables.mailboxes.contents,
        row.queueId ≠ q.toList) ∧
      (∀ row ∈ (Relay.after P (calls ++ later)).image.tables.messages.contents,
        row.queueId ≠ q.toList) ∧
      (∀ row ∈ (Relay.after P (calls ++ later)).image.tables.tombstones.contents,
        row.queueId ≠ q.toList) ∧
      (∀ row ∈ (Relay.after P (calls ++ later)).image.tables.requestNonces.contents,
        row.queueId ≠ q.toList) ∧
      ∀ call : Call P, call.queueId? = some q →
        ∃ e, ((Relay.after P (calls ++ later)).step P call).1 = .error e) := by
  have untimed : ∀ calls : List (Call P), Nondecreasing (fun _ => 0) calls :=
    fun calls => List.pairwise_of_forall fun _ _ => Nat.le_refl 0
  refine ⟨rfl, phase_after calls later q,
    (onceCreated P q).countP_le_one current_empty (untimed calls), ?_, ?_,
    (onceRemoved P q).countP_le_one current_empty (untimed calls), ?_, ?_⟩
  · rintro ⟨entry, member, created⟩
    rcases (onceCreated P q).mark_of_accepted current_empty (untimed calls) member created 0 with
      live | gone
    · exact fun absent => Mailbox.rows_of_absent absent live
    · exact fun absent => Phase.noConfusion (gone.phase.symm.trans absent)
  · intro live
    have live := Mailbox.phase_eq_live.mp live
    constructor
    · intro still
      obtain same | gone := rows_after live later
      · exact same
      · exact absurd gone.noRow (Mailbox.phase_eq_live.mp still)
    · have single := (wellFormed_after calls q).single
      obtain ⟨row, rest, rows⟩ := List.exists_cons_of_ne_nil live
      have alone : rest = [] := by
        rw [rows] at single
        exact List.eq_nil_of_length_eq_zero (by simpa using single)
      subst alone
      refine ⟨row, rows, ?_⟩
      intro request now own different
      refine register_refused own rows ?_
      rintro ⟨send, receive, manage⟩
      exact different (by rw [send, receive, manage])
  · intro entry member removed
    have gone : ((Relay.after P calls).mailbox P q).Gone :=
      (onceRemoved P q).mark_of_accepted current_empty (untimed calls) member removed 0
    exact ⟨removed_true member removed, gone.phase⟩
  · intro retired
    have gone := gone_after retired later
    have none : ∀ {α : Type} {rows : List α} {queueId : α → Bytes},
        rows.filter (fun row => queueId row = q.toList) = [] →
        ∀ row ∈ rows, queueId row ≠ q.toList := by
      intro α rows queueId empty row member same
      exact List.not_mem_nil (empty ▸ List.mem_filter.mpr ⟨member, by simpa using same⟩)
    refine ⟨none gone.noRow, none gone.noMessages, none gone.noTombstones, none gone.noNonces, ?_⟩
    intro call own
    exact (gone.refuses (own_effect _ call own)).1

end Runs

namespace Deletion

def owner : MailboxOwner .symbolic := .symbolic 1
def registration : MailboxRegistration .symbolic := owner.registration (.fill 16 5) 160

/-- A mailbox is registered, deleted and registered again, with a clock that goes
backwards. -/
def calls : List (Call .symbolic) :=
  [.register registration 100,
    .deleteMailbox (owner.managerCapability.authorizeDelete (.fill 16 6) 150) 90,
    .register registration 80]

end Deletion

open Deletion in
theorem mailbox_life_cycle_deletion :
    (history .symbolic calls).map Prod.snd =
      [.ok (.registered true), .ok (.mailboxDeleted true), .error .mailboxConflict] ∧
    (history .symbolic calls).countP (creates owner.queueId) ≤ 1 :=
  ⟨by decide +kernel, (mailbox_life_cycle calls [] owner.queueId).2.2.1⟩

end Relay

end SecureMessenger
