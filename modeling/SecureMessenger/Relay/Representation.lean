import SecureMessenger.Relay.Commit
import SecureMessenger.Relay.Lifecycle

/-!
# The representation invariant of the relay's tables

The tables satisfy more than the schema demands. A message and a tombstone never
name the same message; a registration nonce outlives its mailbox only if the
queue's hash is retired; a live mailbox is not retired. Together with the keys and
foreign keys these make several defensive branches of the operations unreachable.

The facts about single rows hold of every row that a call inserts. The facts that
relate rows to each other concern one queue only, so they are proved for one
mailbox and carried along every run. `Tables.Sound` puts both together.
-/

namespace SecureMessenger

open Fallible Machine

variable {P : Primitives}

namespace Mailbox

variable {m m' : Mailbox}

/-- How the rows of one queue fit together. -/
structure Sound (m : Mailbox) : Prop extends WellFormed m where
  tombstonesDistinct : (m.tombstones.map TombstoneRow.messageId).Nodup
  noncesDistinct : (m.requestNonces.map fun row => (row.role, row.nonce)).Nodup
  registrationsDistinct : (m.registrationNonces.map RegistrationNonceRow.nonce).Nodup
  apart : ∀ row ∈ m.messages, ∀ stone ∈ m.tombstones, stone.messageId ≠ row.messageId
  registered : m.registrationNonces ≠ [] → m.rows ≠ [] ∨ m.retired = true

theorem sound_absent : absent.Sound where
  toWellFormed := wellFormed_absent
  tombstonesDistinct := List.nodup_nil
  noncesDistinct := List.nodup_nil
  registrationsDistinct := List.nodup_nil
  apart := by simp [absent]
  registered := by simp [absent]

theorem Sound.sweep (sound : m.Sound) (now : Int) : (m.sweep now).Sound where
  toWellFormed := sound.toWellFormed.sweep now
  tombstonesDistinct := sound.tombstonesDistinct.sublist (List.filter_sublist.map _)
  noncesDistinct := sound.noncesDistinct.sublist (List.filter_sublist.map _)
  registrationsDistinct := sound.registrationsDistinct.sublist (List.filter_sublist.map _)
  apart := by
    intro row member stone member'
    exact sound.apart row (mem_messages_sweep.mp member).1 stone (mem_tombstones_sweep.mp member').1
  registered := by
    intro some
    refine sound.registered fun none => some ?_
    simp [Mailbox.sweep, none]

theorem Sound.stands (sound : m.Sound) {collision : Prop} {now : UInt64}
    (bystander : Bystander collision now m m') : m'.Sound := by
  cases bystander with
  | untouched => exact sound
  | swept => exact sound.sweep _
  | retired => exact { sound.sweep now.toNat with registered := fun _ => .inr rfl }

/-- Remembering a registration nonce commutes with setting the row. -/
theorem noteRegistration_withRows (m : Mailbox) (rows : List MailboxRow) (queueId : QueueId)
    (nonce : Nonce) (deleteAfter : Int) :
    { m with rows }.noteRegistration queueId nonce deleteAfter =
      { m.noteRegistration queueId nonce deleteAfter with rows } := by
  have same : { m with rows }.hasRegistrationNonce nonce = m.hasRegistrationNonce nonce := rfl
  rw [Mailbox.noteRegistration, Mailbox.noteRegistration, same]
  split <;> rfl

/-- A live mailbox may remember one more registration nonce. -/
theorem Sound.noteRegistration (sound : m.Sound) (queueId : QueueId) (nonce : Nonce)
    (deleteAfter : Int) (live : m.rows ≠ []) :
    (m.noteRegistration queueId nonce deleteAfter).Sound := by
  rw [Mailbox.noteRegistration]
  split
  · exact sound
  · next unused =>
    refine { sound with registrationsDistinct := ?_, registered := fun _ => .inl live }
    refine Table.nodup_map_concat sound.registrationsDistinct ?_
    intro row member same
    exact unused (List.any_eq_true.mpr ⟨row, member, by simpa using same⟩)

/-- A tombstone after a burial names the buried message or an earlier one. -/
theorem messageId_of_mem_bury {queueId : QueueId} {messageId : MessageId} {deleteAfter : Int}
    {stone : TombstoneRow} (member : stone ∈ (m.bury queueId messageId deleteAfter).tombstones) :
    stone.messageId = messageId.toList ∨
      ∃ old ∈ m.tombstones, old.messageId = stone.messageId := by
  unfold Mailbox.bury at member
  by_cases present : m.tombstones.any (fun row => row.messageId = messageId.toList) = true
  · simp only [if_pos present] at member
    obtain ⟨old, listed, rfl⟩ := List.mem_map.mp member
    refine .inr ⟨old, listed, ?_⟩
    split <;> rfl
  · simp only [if_neg present] at member
    obtain old | new := List.mem_append.mp member
    · exact .inr ⟨stone, old, rfl⟩
    · rw [List.mem_singleton.mp new]
      exact .inl rfl

/-- A buried message has one tombstone and is not among the messages. -/
theorem Sound.bury (sound : m.Sound) (queueId : QueueId) (messageId : MessageId)
    (deleteAfter : Int) (live : m.rows ≠ []) :
    (m.bury queueId messageId deleteAfter).Sound where
  single := sound.single
  distinct := sound.distinct.sublist (List.filter_sublist.map _)
  childless absent := (live absent).elim
  noncesDistinct := sound.noncesDistinct
  registrationsDistinct := sound.registrationsDistinct
  registered _ := .inl live
  tombstonesDistinct := by
    unfold Mailbox.bury
    by_cases present : m.tombstones.any (fun row => row.messageId = messageId.toList) = true
    · simp only [if_pos present]
      have ids : TombstoneRow.messageId ∘ (fun row : TombstoneRow =>
          if row.messageId = messageId.toList then { row with deleteAfter } else row) =
          TombstoneRow.messageId := by
        funext row
        simp only [Function.comp_apply]
        split <;> rfl
      rw [List.map_map, ids]
      exact sound.tombstonesDistinct
    · simp only [if_neg present]
      refine Table.nodup_map_concat sound.tombstonesDistinct ?_
      intro row member same
      exact present (List.any_eq_true.mpr ⟨row, member, by simpa using same⟩)
  apart := by
    intro row member stone member'
    obtain ⟨kept, other⟩ := mem_messages_bury.mp member
    obtain same | ⟨old, member', same⟩ := messageId_of_mem_bury member'
    · rw [same]
      exact Ne.symm other
    · rw [← same]
      exact sound.apart row kept old member'

theorem Sound.keeps (sound : m.Sound) {call : Call P} {reply : Reply}
    (effect : Effect P m call reply m') : m'.Sound := by
  have formed := sound.toWellFormed.keeps effect
  have swept := fun now : Int => sound.sweep now
  cases effect with
  | refused => exact sound
  | registered request now _ _ _ _ absent =>
      -- The row comes first: the nonce is remembered for a live mailbox.
      have filled : { m.sweep now.toNat with rows := [rowOf request now.toNat] }.Sound :=
        { swept now.toNat with
          single := by simp
          childless := fun none => by cases none
          registered := fun _ => .inl (by simp) }
      have noted := filled.noteRegistration request.queueId request.nonce
        request.validUntil.toNat (by simp)
      rw [noteRegistration_withRows] at noted
      exact noted
  | registeredAgain request now _ _ _ _ row live =>
      refine (swept now.toNat).noteRegistration _ _ _ fun none => ?_
      rw [show m.rows = [] from none] at live
      cases live
  | stored request now _ _ authorised notGone =>
      refine { formed, swept now.toNat with apart := ?_ }
      intro row member stone member'
      obtain ⟨kept, unexpired⟩ := mem_tombstones_sweep.mp member'
      obtain old | new := List.mem_append.mp member
      · exact (swept now.toNat).apart row old stone member'
      · rw [List.mem_singleton.mp new]
        intro same
        have := notGone stone kept same
        omega
  | duplicate | alreadyDeleted => exact swept _
  | fetched request now _ authorised unused =>
      refine { formed, swept now.toNat with noncesDistinct := ?_ }
      refine Table.nodup_map_concat (swept now.toNat).noncesDistinct ?_
      intro row member same
      obtain ⟨kept, unexpired⟩ := mem_requestNonces_sweep.mp member
      have := unused row kept (congrArg Prod.fst same) (congrArg Prod.snd same)
      omega
  | deleted request now _ authorised => exact (swept now.toNat).bury _ _ _ authorised.live
  | mailboxDeleted request now =>
      exact { sound_absent with
        registrationsDistinct := (swept now.toNat).registrationsDistinct
        registered := fun _ => .inr rfl }

end Mailbox

theorem MailboxRow.queueId_length {row : MailboxRow} (checks : row.checks = true) :
    row.queueId.length = 32 := by
  simp only [MailboxRow.checks, decide_eq_true_eq] at checks
  exact checks.1

theorem RegistrationNonceRow.queueId_length {row : RegistrationNonceRow}
    (checks : row.checks = true) : row.queueId.length = 32 := by
  simp only [RegistrationNonceRow.checks, decide_eq_true_eq] at checks
  exact checks.1

namespace Tables

variable {t t' : Tables}

/-- What holds of every single row: the length checks of the schema, a queue id of
the right length also where the schema does not ask for it, and the limits of a
stored packet. -/
structure Checked (t : Tables) : Prop where
  mailboxes : ∀ row ∈ t.mailboxes.contents, row.checks = true
  messages : ∀ row ∈ t.messages.contents, row.queueId.length = 32 ∧ row.checks = true
  packets : ∀ row ∈ t.messages.contents,
    (1 ≤ row.ciphertext.length ∧ row.ciphertext.length ≤ maxPacketBytes) ∧
      0 ≤ row.expiresAt ∧ row.expiresAt < 2 ^ 63
  tombstones : ∀ row ∈ t.tombstones.contents, row.queueId.length = 32 ∧ row.checks = true
  requestNonces : ∀ row ∈ t.requestNonces.contents, row.queueId.length = 32 ∧ row.checks = true
  registrationNonces : ∀ row ∈ t.registrationNonces.contents, row.checks = true
  retiredQueues : ∀ row ∈ t.retiredQueues.contents, row.checks = true

theorem checked_empty : Tables.empty.Checked := by
  constructor <;> intro row member <;> cases member

/-- The rows that calls insert pass every check. -/
theorem Checked.commit (checked : t.Checked) {call : Call P} {answer : Answer}
    (committed : call.commits P t = .ok (answer, t')) : t'.Checked := by
  have arises := Call.commits_arises committed
  obtain ⟨_, bounded⟩ := Call.commits_bounded committed
  constructor
  case mailboxes =>
    intro row member
    obtain old | new := arises.mailboxes row member
    · exact checked.mailboxes row old
    · cases call <;> cases new
      simp [MailboxRow.checks, Mailbox.rowOf, FixedBytes.length_toList]
  case messages =>
    intro row member
    obtain ⟨old, _⟩ | new := arises.messages row member
    · exact checked.messages row old
    · cases call <;> cases new
      simp [MessageRow.checks, Mailbox.messageOf, FixedBytes.length_toList]
  case packets =>
    intro row member
    obtain ⟨old, _⟩ | new := arises.messages row member
    · exact checked.packets row old
    · cases call <;> cases new
      obtain ⟨⟨full, short⟩, _, fits⟩ := bounded
      simp only [Mailbox.messageOf]
      have := List.length_pos_iff.mpr full
      omega
  case tombstones =>
    intro row member
    obtain ⟨old, _⟩ | new := arises.tombstones row member
    · exact checked.tombstones row old
    · cases call <;> cases new
      simp [TombstoneRow.checks, FixedBytes.length_toList]
  case requestNonces =>
    intro row member
    obtain ⟨old, _⟩ | new := arises.requestNonces row member
    · exact checked.requestNonces row old
    · cases call <;> cases new
      simp [RequestNonceRow.checks, FixedBytes.length_toList]
  case registrationNonces =>
    intro row member
    obtain ⟨old, _⟩ | new := arises.registrationNonces row member
    · exact checked.registrationNonces row old
    · cases call <;> cases new
      simp [RegistrationNonceRow.checks, FixedBytes.length_toList]
  case retiredQueues =>
    intro row member
    obtain old | new := arises.retiredQueues row member
    · exact checked.retiredQueues row old
    · cases call <;> cases new
      simp [RetiredQueueRow.checks, FixedBytes.length_toList]

/-- How the rows of the six tables fit together. -/
structure Sound (P : Primitives) (t : Tables) : Prop where
  messageParent : ∀ row ∈ t.messages.contents, t.hasMailbox row.queueId = true
  tombstoneParent : ∀ row ∈ t.tombstones.contents, t.hasMailbox row.queueId = true
  nonceParent : ∀ row ∈ t.requestNonces.contents, t.hasMailbox row.queueId = true
  apart : ∀ row ∈ t.messages.contents, ∀ stone ∈ t.tombstones.contents,
    (stone.queueId, stone.messageId) ≠ (row.queueId, row.messageId)
  registered : ∀ row ∈ t.registrationNonces.contents, t.hasMailbox row.queueId = true ∨
    ∃ retired ∈ t.retiredQueues.contents, retired.queueHash = (digest P row.queueId).toList
  packets : ∀ row ∈ t.messages.contents,
    (1 ≤ row.ciphertext.length ∧ row.ciphertext.length ≤ 1048576) ∧
      0 ≤ row.expiresAt ∧ row.expiresAt ≤ 2 ^ 63 - 1

theorem hasMailbox_of_rows {q : QueueId} (live : (t.mailbox P q).rows ≠ []) :
    t.hasMailbox q.toList = true := by
  rw [hasMailbox_eq (P := P)]
  simpa using live

/-- A queue that still has child rows has a mailbox. -/
theorem hasMailbox_of_child {q : QueueId} (formed : (t.mailbox P q).WellFormed)
    (child : (t.mailbox P q).messages ≠ [] ∨ (t.mailbox P q).tombstones ≠ [] ∨
      (t.mailbox P q).requestNonces ≠ []) : t.hasMailbox q.toList = true := by
  refine hasMailbox_of_rows (P := P) fun none => ?_
  obtain ⟨messages, tombstones, nonces⟩ := formed.childless none
  obtain some | some | some := child
  · exact some messages
  · exact some tombstones
  · exact some nonces

/-- Sound mailboxes make sound tables: every row belongs to the mailbox of its
queue id. -/
theorem Checked.sound (checked : t.Checked) (each : ∀ q, (t.mailbox P q).Sound) : t.Sound P where
  messageParent := by
    intro row member
    let q : QueueId := ⟨row.queueId, (checked.messages row member).1⟩
    have mine : row ∈ (t.mailbox P q).messages := List.mem_filter.mpr ⟨member, by simp [q]⟩
    exact hasMailbox_of_child (each q).toWellFormed (.inl (List.ne_nil_of_mem mine))
  tombstoneParent := by
    intro row member
    let q : QueueId := ⟨row.queueId, (checked.tombstones row member).1⟩
    have mine : row ∈ (t.mailbox P q).tombstones := List.mem_filter.mpr ⟨member, by simp [q]⟩
    exact hasMailbox_of_child (each q).toWellFormed (.inr (.inl (List.ne_nil_of_mem mine)))
  nonceParent := by
    intro row member
    let q : QueueId := ⟨row.queueId, (checked.requestNonces row member).1⟩
    have mine : row ∈ (t.mailbox P q).requestNonces := List.mem_filter.mpr ⟨member, by simp [q]⟩
    exact hasMailbox_of_child (each q).toWellFormed (.inr (.inr (List.ne_nil_of_mem mine)))
  apart := by
    intro row member stone member' same
    obtain ⟨sameQueue, sameMessage⟩ := Prod.mk.inj same
    let q : QueueId := ⟨row.queueId, (checked.messages row member).1⟩
    have mine : row ∈ (t.mailbox P q).messages := List.mem_filter.mpr ⟨member, by simp [q]⟩
    have mine' : stone ∈ (t.mailbox P q).tombstones :=
      List.mem_filter.mpr ⟨member', by simp [q, sameQueue]⟩
    exact (each q).apart row mine stone mine' sameMessage
  registered := by
    intro row member
    have length := RegistrationNonceRow.queueId_length (checked.registrationNonces row member)
    let q : QueueId := ⟨row.queueId, length⟩
    have mine : row ∈ (t.mailbox P q).registrationNonces :=
      List.mem_filter.mpr ⟨member, by simp [q]⟩
    obtain live | retired := (each q).registered (List.ne_nil_of_mem mine)
    · exact .inl (hasMailbox_of_rows (P := P) (q := q) live)
    · obtain ⟨hash, member, same⟩ := List.any_eq_true.mp retired
      exact .inr ⟨hash, member, by simpa using same⟩
  packets := by
    intro row member
    obtain ⟨size, positive, fits⟩ := checked.packets row member
    exact ⟨size, positive, by omega⟩

end Tables

namespace Relay

theorem checked_after (calls : List (Call P)) : (Relay.after P calls).image.tables.Checked :=
  tables_after Tables.Checked (fun checked committed => checked.commit committed)
    Tables.checked_empty calls

theorem sound_after (calls : List (Call P)) (q : QueueId) :
    ((Relay.after P calls).mailbox P q).Sound :=
  run_mailbox Mailbox.Sound (fun sound effect => sound.keeps effect)
    (fun sound bystander => sound.stands bystander) current_empty Mailbox.sound_absent calls

end Relay

namespace Mailbox

variable {m m' : Mailbox}

/-- A retired queue without a row is not registered again. -/
theorem Effect.rows_of_retired {call : Call P} {reply : Reply} (effect : Effect P m call reply m')
    (none : m.rows = []) (retired : m.retired = true) : m'.rows = [] := by
  cases effect with
  | refused | stored | duplicate | fetched | alreadyDeleted | deleted => exact none
  | registered _ _ _ _ _ unretired =>
      rw [retired] at unretired
      cases unretired
  | registeredAgain => exact (rows_noteRegistration _ _ _).trans none
  | mailboxDeleted => rfl

end Mailbox

namespace Relay

/-- The queue ids named by the calls of a run. -/
def Named (calls : List (Call P)) (bytes : Bytes) : Prop :=
  ∃ call ∈ calls, ∃ q, call.queueId? = some q ∧ q.toList = bytes

theorem Named.concat {calls : List (Call P)} {bytes : Bytes} (named : Named calls bytes)
    (call : Call P) : Named (calls ++ [call]) bytes := by
  obtain ⟨call', member, rest⟩ := named
  exact ⟨call', List.mem_append_left _ member, rest⟩

theorem named_last (calls : List (Call P)) {call : Call P} {q : QueueId}
    (own : call.queueId? = some q) : Named (calls ++ [call]) q.toList :=
  ⟨call, List.mem_append_right _ (List.mem_singleton.mpr rfl), q, own, rfl⟩

/-- Every live mailbox was named by a call, and every retired hash is that of a
named queue which has no mailbox any more. -/
structure Retirement (calls : List (Call P)) (r : Relay) : Prop where
  live : ∀ row ∈ r.image.tables.mailboxes.contents, Named calls row.queueId
  retired : ∀ row ∈ r.image.tables.retiredQueues.contents, ∃ q : QueueId, Named calls q.toList ∧
    row.queueHash = (digest P q.toList).toList ∧ (r.mailbox P q).rows = []

theorem retired_of_mem {r : Relay} {row : RetiredQueueRow} {q : QueueId}
    (member : row ∈ r.image.tables.retiredQueues.contents)
    (same : row.queueHash = (digest P q.toList).toList) : (r.mailbox P q).retired = true :=
  List.any_eq_true.mpr ⟨row, member, by simpa using same⟩

/-- A queue that is retired and gone stays so, whoever calls. -/
theorem rows_step_of_retired {r : Relay} (current : r.Current) {q : QueueId}
    (none : (r.mailbox P q).rows = []) (retired : (r.mailbox P q).retired = true)
    (call : Call P) : ((r.step P call).2.mailbox P q).rows = [] := by
  obtain ⟨_, effect⟩ | ⟨_, bystander⟩ := step_view current q call
  · exact effect.rows_of_retired none retired
  · exact bystander.rows.trans none

theorem Retirement.concat {calls : List (Call P)} {r : Relay} (before : Retirement calls r)
    (current : r.Current) (call : Call P) :
    Retirement (calls ++ [call]) (r.step P call).2 := by
  cases reply : (r.step P call).1 with
  | error e =>
      rw [step_error reply]
      refine ⟨fun row member => (before.live row member).concat call, fun row member => ?_⟩
      obtain ⟨q, named, hash, none⟩ := before.retired row member
      exact ⟨q, named.concat call, hash, none⟩
  | ok answer =>
      obtain ⟨tables, committed, image⟩ := step_ok current reply
      have arises := Call.commits_arises committed
      constructor
      · intro row member
        rw [image] at member
        obtain old | new := arises.mailboxes row member
        · exact (before.live row old).concat call
        · cases call <;> cases new
          exact named_last calls rfl
      · intro row member
        rw [image] at member
        obtain old | new := arises.retiredQueues row member
        · obtain ⟨q, named, hash, none⟩ := before.retired row old
          exact ⟨q, named.concat call, hash,
            rows_step_of_retired current none (retired_of_mem old hash) call⟩
        · cases call <;> cases new
          rename_i request now
          refine ⟨request.queueId, named_last calls rfl, rfl, ?_⟩
          have effect := r.own_effect (P := P) (.deleteMailbox request now) rfl
          rw [reply] at effect
          generalize (r.step P (.deleteMailbox request now)).2.mailbox P request.queueId = m'
            at effect ⊢
          cases effect
          rfl

theorem retirement_after (calls : List (Call P)) : Retirement calls (Relay.after P calls) := by
  induction calls using List.reverseRecOn with
  | nil => exact ⟨by rintro row ⟨⟩, by rintro row ⟨⟩⟩
  | append_singleton calls call ih =>
      rw [after_concat]
      exact ih.concat (current_after calls) call

/-- Without a digest collision among the queue ids of a run, no live mailbox has a
retired hash. -/
theorem unretired_after {calls : List (Call P)} (collisionFree : CollisionFree P (Named calls)) :
    ∀ row ∈ (Relay.after P calls).image.tables.mailboxes.contents,
      ∀ retired ∈ (Relay.after P calls).image.tables.retiredQueues.contents,
        retired.queueHash ≠ (digest P row.queueId).toList := by
  intro row member retired member' same
  have retirement := retirement_after calls
  obtain ⟨q, named, hash, none⟩ := retirement.retired retired member'
  have own : q.toList = row.queueId := by
    refine collisionFree _ _ named (retirement.live row member) ?_
    exact FixedBytes.toList_inj.mp (hash.symm.trans same)
  have mine : row ∈ ((Relay.after P calls).mailbox P q).rows :=
    List.mem_filter.mpr ⟨member, by simp [own]⟩
  rw [none] at mine
  cases mine

/-- The defensive branches that are never taken from a relay: the nonce of a new
mailbox is always new, a message that is being acknowledged has no tombstone yet, a
deletion removes a mailbox, and every message that a fetch selects decodes. -/
structure NeverDefends (P : Primitives) (r : Relay) : Prop where
  nonceFresh : ∀ (request : MailboxRegistration P) (now : UInt64) (validUntil : Int)
    (purged : Nat × Tables), purgeExpiredIn r.image.tables now = .ok purged →
    purged.2.retiredQueues.exists?
      (fun row => row.queueHash = (digest P request.queueId.toList).toList) = false →
    purged.2.mailboxes.find? (fun row => row.queueId = request.queueId.toList) = none →
    (purged.2.insertRegistrationNonce
      { queueId := request.queueId.toList, nonce := request.nonce.toList,
        deleteAfter := validUntil }).1 = 1
  tombstoneFresh : ∀ (request : AckRequest) (now : UInt64) (purged : Nat × Tables)
    (row : MessageRow), purgeExpiredIn r.image.tables now = .ok purged →
    purged.2.messages.find? (fun row => row.queueId = request.queueId.toList ∧
      row.messageId = request.messageId.toList) = some row →
    (purged.2.deleteMessage request.queueId.toList request.messageId.toList).tombstones.exists?
      (fun stone => stone.key = (request.queueId.toList, request.messageId.toList)) = false
  deletes : ∀ (request : DeleteMailboxRequest) (now : UInt64),
    (r.deleteMailbox P request now).1 ≠ .ok false
  decodes : ∀ (request : FetchRequest) (now : UInt64) (purged : Nat × Tables) (t : Tables),
    purgeExpiredIn r.image.tables now = .ok purged →
    recordNonce purged.2 request.queueId .receive request.nonce request.validUntil = .ok t →
    ∃ envelopes, (t.messages.contents.filter (fun row => row.queueId = request.queueId.toList ∧
      (now.toNat : Int) < row.expiresAt)).mapM (decodeEnvelope request.queueId) = .ok envelopes

/-- A message row that passes its checks decodes. -/
theorem decodeEnvelope_succeeds (queueId : QueueId) {row : MessageRow}
    (checks : row.checks = true) (positive : 0 ≤ row.expiresAt) (fits : row.expiresAt < 2 ^ 63) :
    ∃ envelope, decodeEnvelope queueId row = .ok envelope := by
  simp only [MessageRow.checks, decide_eq_true_eq] at checks
  have inRange : 0 ≤ row.expiresAt ∧ row.expiresAt < 2 ^ 64 := by omega
  refine ⟨⟨queueId, ⟨row.messageId, checks.1⟩, row.ciphertext, UInt64.ofNat row.expiresAt.toNat,
    ⟨row.senderSignature, checks.2⟩⟩, ?_⟩
  simp only [decodeEnvelope, FixedBytes.fromSlice, toU64, dif_pos checks.1, dif_pos checks.2,
    if_pos inRange]

theorem neverDefends {r : Relay} (checked : r.image.tables.Checked)
    (each : ∀ q, (r.mailbox P q).Sound) : r.NeverDefends P where
  nonceFresh := by
    intro request now validUntil purged sweeps unretired none
    obtain ⟨_, view⟩ := Tables.purgeExpiredIn_other (P := P) request.queueId sweeps
    have sound : (purged.2.mailbox P request.queueId).Sound := view ▸ (each _).sweep _
    have empty : (purged.2.mailbox P request.queueId).registrationNonces = [] := by
      by_contra some
      obtain live | retired := sound.registered some
      · rw [← Tables.head_rows_mailbox (P := P), List.head?_eq_none_iff] at none
        exact live none
      · exact Bool.noConfusion (retired.symm.trans unretired)
    rw [(purged.2.insertRegistrationNonce_mailbox (P := P) request.queueId request.nonce
      validUntil).1, Mailbox.hasRegistrationNonce, empty]
    rfl
  tombstoneFresh := by
    intro request now purged row sweeps found
    obtain ⟨_, view⟩ := Tables.purgeExpiredIn_other (P := P) request.queueId sweeps
    have sound : (purged.2.mailbox P request.queueId).Sound := view ▸ (each _).sweep _
    rw [Tables.find_message_mailbox (P := P)] at found
    have mine := List.mem_of_find?_eq_some found
    have id : row.messageId = request.messageId.toList := by simpa using List.find?_some found
    change purged.2.tombstones.exists? _ = false
    simp only [TombstoneRow.key, Prod.mk.injEq]
    rw [purged.2.any_tombstone_mailbox (P := P), List.any_eq_false]
    intro stone member
    rw [decide_eq_true_eq, ← id]
    exact sound.apart row mine stone member
  deletes := by
    intro request now failed
    have effect := r.own_effect (P := P) (.deleteMailbox request now) rfl
    have reply : (r.step P (.deleteMailbox request now)).1 = .ok (.mailboxDeleted false) := by
      change (r.deleteMailbox P request now).1.map _ = _
      rw [failed]
      rfl
    rw [reply] at effect
    cases (each request.queueId).toWellFormed.deleted_eq_true effect
  decodes := by
    intro request now purged t sweeps recorded
    obtain ⟨_, rfl⟩ := Tables.purgeExpiredIn_eq_ok.mp sweeps
    rw [(Tables.eq_of_recordNonce recorded).2]
    refine mapM_succeeds fun row member => ?_
    have stored : row ∈ r.image.tables.messages.contents := by
      have kept := (List.mem_filter.mp member).1
      simp only [Tables.swept, Table.contents_keep, List.mem_filter] at kept
      exact kept.1
    obtain ⟨_, positive, fits⟩ := checked.packets row stored
    exact decodeEnvelope_succeeds _ (checked.messages row stored).2 positive fits

/-- After every run, with whatever clocks and requests, the tables are sound, no live
mailbox is retired unless two queue ids of the run share a digest, and the defensive
branches are out of reach. -/
theorem representation_invariant (calls : List (Call P)) :
    (Relay.after P calls).image.tables.Sound P ∧
    (CollisionFree P (Named calls) →
      ∀ row ∈ (Relay.after P calls).image.tables.mailboxes.contents,
        ∀ retired ∈ (Relay.after P calls).image.tables.retiredQueues.contents,
          retired.queueHash ≠ (digest P row.queueId).toList) ∧
    (Relay.after P calls).NeverDefends P :=
  ⟨(checked_after calls).sound (sound_after calls), unretired_after,
    neverDefends (checked_after calls) (sound_after calls)⟩

namespace Turnover

def kept : MailboxOwner .symbolic := .symbolic 1
def removed : MailboxOwner .symbolic := .symbolic 11
def sent : SendRequest := kept.senderCapability.authorize (.fill 16 1) [1] 400

/-- One mailbox is used and stays, another is deleted; the clock goes back in
between. -/
def calls : List (Call .symbolic) :=
  [.register (kept.registration (.fill 16 5) 160) 100,
    .register (removed.registration (.fill 16 5) 160) 90,
    .enqueue sent 101,
    .enqueue (kept.senderCapability.authorize (.fill 16 2) [2] 500) 95,
    .acknowledge (kept.receiverCapability.authorizeAck
      ⟨⟨1, .fill 16 9, .fill 16 1, 0, ""⟩, ⟨kept.queueId, .fill 16 1, [1], 400⟩⟩ 200) 110,
    .deleteMailbox (removed.managerCapability.authorizeDelete (.fill 16 6) 150) 105]

theorem collisionFree_calls : CollisionFree .symbolic (Named calls) := by
  rintro _ _ ⟨_, _, q, _, rfl⟩ ⟨_, _, q', _, rfl⟩ same
  exact congrArg FixedBytes.toList (Primitives.symbolic_digest_injective same)

end Turnover

open Turnover in
theorem representation_invariant_turnover :
    ((Relay.after .symbolic calls).image.tables.mailboxes.contents.map MailboxRow.queueId,
      (Relay.after .symbolic calls).image.tables.messages.contents.length,
      (Relay.after .symbolic calls).image.tables.tombstones.contents.length,
      (Relay.after .symbolic calls).image.tables.registrationNonces.contents.length,
      (Relay.after .symbolic calls).image.tables.retiredQueues.contents.length) =
      ([kept.queueId.toList], 1, 1, 2, 1) ∧
    ∀ row ∈ (Relay.after .symbolic calls).image.tables.mailboxes.contents,
      ∀ retired ∈ (Relay.after .symbolic calls).image.tables.retiredQueues.contents,
        retired.queueHash ≠ (digest .symbolic row.queueId).toList :=
  ⟨by decide +kernel, (representation_invariant calls).2.1 collisionFree_calls⟩

end Relay

end SecureMessenger
