import SecureMessenger.Relay.Admission
import SecureMessenger.Relay.Replay

/-!
# Lost requests and lost answers

A client that does not receive an answer submits the same request again. What the
relay answers then is a function of the history: which requests were stored, which
acknowledgements deleted a message since, and the clock. The relay keeps only a
message row or a tombstone of that history. Until the expiry of the request one of
the two is there, and it is the right one.

A message that was stored and not acknowledged is pending in the abstract queue; one
that was acknowledged has a tombstone for a week, which is at least as long as its
request stays valid.
-/

namespace SecureMessenger

open Fallible Machine

variable {P : Primitives}

namespace Mailbox

variable {m m' : Mailbox}

/-- A send request is refused from its expiry on. -/
theorem enqueue_expired {request : SendRequest} {now : UInt64}
    (size : request.packet ≠ [] ∧ request.packet.length ≤ maxPacketBytes)
    (expired : request.expiresAt ≤ now) :
    m.enqueue P request now = .error .invalidExpiry := by
  rw [enqueue, rejectIf_of_not (by simp [size.1, size.2]), ok_bind, validateMessageExpiry,
    rejectIf_of (.inl expired), error_bind]

/-- Only a deletion takes the row of a live mailbox away. -/
theorem Effect.rows_of_kept {call : Call P} {reply : Reply} {q : QueueId}
    (effect : Effect P m call reply m') (own : call.queueId? = some q) (live : m.rows ≠ [])
    (kept : Relay.removes q (call, reply) = false) : m'.rows = m.rows := by
  cases effect with
  | refused | stored | duplicate | fetched | alreadyDeleted | deleted => rfl
  | registered _ _ _ _ _ _ absent => exact absurd absent live
  | registeredAgain => exact rows_noteRegistration _ _ _
  | mailboxDeleted => exact absurd (Option.some.inj own) (of_decide_eq_false kept)

end Mailbox

namespace Relay

/-- The row of a live mailbox stays as it is while no deletion of it succeeds. -/
theorem rows_run {r : Relay} (current : r.Current) {q : QueueId} (live : (r.mailbox P q).rows ≠ [])
    {calls : List (Call P)}
    (kept : ∀ entry ∈ trace (Relay.step P) r calls, removes q entry = false) :
    ((run (Relay.step P) r calls).mailbox P q).rows = (r.mailbox P q).rows := by
  induction calls generalizing r with
  | nil => rfl
  | cons call calls ih =>
      have one : ((r.step P call).2.mailbox P q).rows = (r.mailbox P q).rows := by
        obtain ⟨own, effect⟩ | ⟨_, bystander⟩ := step_view current q call
        · exact effect.rows_of_kept own live (kept _ (List.mem_cons_self ..))
        · exact bystander.rows
      rw [run_cons, ih (current_step current call) (by rwa [one])
        fun entry member => kept entry (List.mem_cons_of_mem _ member), one]

/-- What is outstanding stays so under a longer past. -/
theorem mem_outstanding_append {q : QueueId} {request : SendRequest}
    (past : List (Call P × Reply)) {entries : List (Call P × Reply)}
    (member : request ∈ outstanding q entries) : request ∈ outstanding q (past ++ entries) := by
  induction past with
  | nil => exact member
  | cons entry past ih =>
      rw [List.cons_append, outstanding]
      split
      · split
        · exact ih
        · exact List.mem_cons_of_mem _ ih
      · exact ih

/-- The calls after a stored message, with their answers. -/
def since (P : Primitives) (before : List (Call P)) (sent : SendRequest) (storedAt : UInt64)
    (later : List (Call P)) : List (Call P × Reply) :=
  trace (Relay.step P) ((Relay.after P before).step P (.enqueue sent storedAt)).2 later

/-- A run in which a message was stored and its mailbox not deleted since, and a time that
is not before it. -/
structure Remembers (P : Primitives) (calls before : List (Call P)) (sent : SendRequest)
    (storedAt : UInt64) (later : List (Call P)) (now : UInt64) : Prop where
  split : calls = before ++ .enqueue sent storedAt :: later
  timed : Nondecreasing Call.clock calls
  earlier : ∀ call ∈ calls, call.clock ≤ now.toNat
  stored : ((Relay.after P before).step P (.enqueue sent storedAt)).1 = .ok (.enqueued .stored)
  kept : ∀ entry ∈ since P before sent storedAt later, removes sent.queueId entry = false

/-- Such a run, and a time at which a request for the message is submitted again. An
acknowledgement at that time may leave a tombstone, whose deadline must be storable. -/
structure Resubmits (P : Primitives) (calls before : List (Call P)) (sent : SendRequest)
    (storedAt : UInt64) (later : List (Call P)) (now : UInt64) : Prop
    extends Remembers P calls before sent storedAt later now where
  horizon : now.toNat + 604800 < 2 ^ 63

section

variable {calls before later : List (Call P)} {sent : SendRequest} {storedAt now : UInt64}

namespace Remembers

variable (run : Remembers P calls before sent storedAt later now)

include run

/-- What the relay checked and did when it stored the message. -/
theorem effect : ∃ m', Mailbox.Effect P ((Relay.after P before).mailbox P sent.queueId)
    (.enqueue sent storedAt) (.ok (.enqueued .stored)) m' ∧
    m' = ((Relay.after P before).step P (.enqueue sent storedAt)).2.mailbox P sent.queueId := by
  refine ⟨_, ?_, rfl⟩
  rw [← run.stored]
  exact own_effect _ _ rfl

/-- The bounds that the request kept when it was stored. -/
theorem accepted : (sent.packet ≠ [] ∧ sent.packet.length ≤ maxPacketBytes) ∧
    Mailbox.Timely 604800 sent.expiresAt storedAt ∧ sent.expiresAt.toNat < 2 ^ 63 := by
  obtain ⟨tables, committed, _⟩ := step_ok (current_after before) run.stored
  exact (Call.commits_bounded committed).2

/-- The mailbox is live. -/
theorem live : ((Relay.after P before).mailbox P sent.queueId).rows ≠ [] := by
  obtain ⟨m', effect, _⟩ := run.effect
  cases effect with
  | stored _ _ _ _ authorised => exact authorised.live

/-- The mailbox still has the row it had. -/
theorem rows : ((Relay.after P calls).mailbox P sent.queueId).rows =
    ((Relay.after P before).mailbox P sent.queueId).rows := by
  have same : (((Relay.after P before).step P (.enqueue sent storedAt)).2.mailbox P
      sent.queueId).rows = ((Relay.after P before).mailbox P sent.queueId).rows := by
    obtain ⟨m', effect, view⟩ := run.effect
    rw [← view]
    cases effect with
    | stored => rfl
  rw [run.split, after_append, run_cons,
    rows_run (current_step (current_after before) _) (same ▸ run.live) run.kept, same]

theorem storedAt_le : storedAt.toNat ≤ now.toNat :=
  run.earlier (.enqueue sent storedAt) (by simp [run.split])

theorem notGone : ¬ ((Relay.after P calls).mailbox P sent.queueId).Gone :=
  fun gone => run.live (run.rows.symm.trans gone.noRow)

/-- The signature of the send request still verifies. -/
theorem authorised (representable : now.toNat < 2 ^ 63) :
    ((Relay.after P calls).mailbox P sent.queueId).Authorised P .sendKey
      (sent.signingBytes P) sent.signature now := by
  obtain ⟨m', effect, _⟩ := run.effect
  refine ⟨representable, ?_⟩
  rw [Mailbox.key, run.rows]
  cases effect with
  | stored _ _ _ _ authorised => exact authorised.signed

/-- While the request is unexpired and unacknowledged, its message is there. -/
theorem message (unexpired : now < sent.expiresAt)
    (unacknowledged : (since P before sent storedAt later).any
      (acknowledges sent.queueId sent.messageId) = false) :
    Mailbox.messageOf sent sent.expiresAt.toNat ∈
      (((Relay.after P calls).mailbox P sent.queueId).sweep now.toNat).messages := by
  have latest : latest Call.clock 0 calls ≤ now.toNat := latest_le (Nat.zero_le _) run.earlier
  have queues := (queues_after sent.queueId run.timed).resolve_left run.notGone
  rw [Mailbox.messages_sweep_later latest queues, Mailbox.pending, List.mem_map]
  refine ⟨sent, List.mem_filter.mpr ⟨?_, ?_⟩, rfl⟩
  · have split : history P calls =
        history P before ++ (.enqueue sent storedAt, .ok (.enqueued .stored)) ::
          since P before sent storedAt later := by
      rw [run.split, history, trace_append, trace_cons]
      change _ ++ (_, ((Relay.after P before).step P (.enqueue sent storedAt)).1) :: _ = _
      rw [run.stored]
      rfl
    rw [split]
    refine mem_outstanding_append _ ?_
    simp [outstanding, storedRequest?, unacknowledged]
  · exact decide_eq_true (UInt64.lt_iff_toNat_lt.mp unexpired)

/-- For a week after the acknowledgement its tombstone is there. -/
theorem tombstone {entry : Call P × Reply} (member : entry ∈ since P before sent storedAt later)
    (acknowledged : acknowledges sent.queueId sent.messageId entry = true)
    (week : now.toNat < entry.1.clock + 604800) :
    ∃ stone ∈ (((Relay.after P calls).mailbox P sent.queueId).sweep now.toNat).tombstones,
      stone.messageId = sent.messageId.toList := by
  obtain ⟨call, reply⟩ := entry
  obtain ⟨request, acknowledgedAt, rfl, rfl, sameQueue, sameId⟩ := acknowledges_iff.mp acknowledged
  obtain ⟨first, rest, rfl, answer⟩ := mem_trace member
  have split : calls = (before ++ .enqueue sent storedAt :: first) ++
      .acknowledge request acknowledgedAt :: rest := by simp [run.split]
  have superseded := superseded_after (split ▸ run.timed) (by
    rw [after_append, run_cons]
    exact answer.symm)
  rw [← split, sameQueue, sameId] at superseded
  obtain ⟨_, barred, _⟩ := superseded.resolve_left run.notGone
  have latest : latest Call.clock acknowledgedAt.toNat rest ≤ now.toNat := by
    refine latest_le ?_ fun call member => run.earlier call (by simp [split, member])
    exact run.earlier (.acknowledge request acknowledgedAt) (by simp [split])
  change now.toNat < acknowledgedAt.toNat + 604800 at week
  obtain passed | tombstone := barred
  · omega
  · obtain ⟨stone, member, same, _⟩ := (tombstone.sweep now.toNat).resolve_left (by omega)
    exact ⟨stone, member, same⟩

/-- An acknowledgement since the message was stored leaves a tombstone that outlives the
request. -/
theorem tombstone_of_unexpired (unexpired : now < sent.expiresAt)
    (acknowledged : (since P before sent storedAt later).any
      (acknowledges sent.queueId sent.messageId) = true) :
    ∃ stone ∈ (((Relay.after P calls).mailbox P sent.queueId).sweep now.toNat).tombstones,
      stone.messageId = sent.messageId.toList := by
  obtain ⟨entry, member, acknowledges⟩ := List.any_eq_true.mp acknowledged
  have later : storedAt.toNat ≤ entry.1.clock :=
    (List.pairwise_cons.mp (run.split ▸ run.timed).right).1 entry.1 (fst_mem_of_mem_trace member)
  have near := run.accepted.2.1.near
  have future := UInt64.lt_iff_toNat_lt.mp unexpired
  exact run.tombstone member acknowledges (by omega)

/-- A stored message is found under its id, and no tombstone bears that id. -/
theorem found (unexpired : now < sent.expiresAt)
    (unacknowledged : (since P before sent storedAt later).any
      (acknowledges sent.queueId sent.messageId) = false) :
    (((Relay.after P calls).mailbox P sent.queueId).sweep now.toNat).findMessage sent.messageId =
      some (Mailbox.messageOf sent sent.expiresAt.toNat) ∧
    ∀ stone ∈ (((Relay.after P calls).mailbox P sent.queueId).sweep now.toNat).tombstones,
      stone.messageId ≠ sent.messageId.toList := by
  have sound := (sound_after calls sent.queueId).sweep now.toNat
  have message := run.message unexpired unacknowledged
  exact ⟨sound.findMessage_of_mem message rfl, sound.apart _ message⟩

/-- The answer to the same send request. -/
theorem enqueue_again : ((Relay.after P calls).step P (.enqueue sent now)).1 =
    (if sent.expiresAt ≤ now then .error .invalidExpiry
      else if (since P before sent storedAt later).any
        (acknowledges sent.queueId sent.messageId) then .error .messageGone
      else .ok (.enqueued .duplicate)) := by
  obtain ⟨size, timely, fits⟩ := run.accepted
  have own : (Call.enqueue (P := P) sent now).queueId? = some sent.queueId := rfl
  rw [(step_own _ own).1, Mailbox.step]
  by_cases expired : sent.expiresAt ≤ now
  · rw [if_pos expired, Mailbox.enqueue_expired size expired]
    rfl
  · have unexpired := UInt64.not_le.mp expired
    have future := UInt64.lt_iff_toNat_lt.mp unexpired
    have near := timely.near
    have stored := run.storedAt_le
    -- The expiry was stored once, so a time before it can be stored as well.
    have outcomes := Mailbox.enqueue_outcomes size ⟨future, by omega⟩ fits
      (run.authorised (by omega))
    rw [if_neg expired]
    cases acknowledged : (since P before sent storedAt later).any
        (acknowledges sent.queueId sent.messageId) with
    | true =>
        rw [outcomes.gone (run.tombstone_of_unexpired unexpired acknowledged)]
        rfl
    | false =>
        obtain ⟨found, untombed⟩ := run.found unexpired acknowledged
        rw [outcomes.duplicate untombed _ found rfl rfl]
        rfl

end Remembers

/-- The answer to a genuine acknowledgement of the message. -/
theorem Resubmits.acknowledge_again (run : Resubmits P calls before sent storedAt later now)
    {ack : AckRequest} (sameQueue : ack.queueId = sent.queueId)
    (sameId : ack.messageId = sent.messageId) (samePacket : ack.packetHash = digest P sent.packet)
    (signed : ∃ key,
      mailboxKey P (Relay.after P calls).image.tables sent.queueId .receiveKey = .ok key ∧
        key.verify ack.signingBytes ack.signature = true)
    (future : now < ack.validUntil) (near : ack.validUntil.toNat ≤ now.toNat + 300) :
    (now < sent.expiresAt → (since P before sent storedAt later).any
        (acknowledges sent.queueId sent.messageId) = false →
      ((Relay.after P calls).step P (.acknowledge ack now)).1 = .ok (.acknowledged .deleted)) ∧
    ∀ entry ∈ since P before sent storedAt later,
      acknowledges sent.queueId sent.messageId entry = true →
      now.toNat < entry.1.clock + 604800 →
      ((Relay.after P calls).step P (.acknowledge ack now)).1 =
        .ok (.acknowledged .alreadyDeleted) := by
  have own : (Call.acknowledge (P := P) ack now).queueId? = some sent.queueId :=
    congrArg some sameQueue
  rw [(step_own _ own).1, Mailbox.step]
  simp only [Tables.mailboxKey_mailbox] at signed
  have authorised : ((Relay.after P calls).mailbox P sent.queueId).Authorised P .receiveKey
      ack.signingBytes ack.signature now :=
    ⟨Nat.lt_of_le_of_lt (Nat.le_add_right _ _) run.horizon, signed⟩
  have outcomes := Mailbox.ack_outcomes ⟨UInt64.lt_iff_toNat_lt.mp future, near⟩ authorised
  rw [← sameId]
  constructor
  · intro unexpired unacknowledged
    obtain ⟨found, _⟩ := run.found unexpired (sameId ▸ unacknowledged)
    obtain ⟨m', deleted⟩ := outcomes.deleted _ (sameId ▸ found) samePacket.symm run.horizon
    rw [deleted]
    rfl
  · intro entry member acknowledged week
    obtain ⟨stone, member', same⟩ := run.tombstone member (sameId ▸ acknowledged) week
    have sound := (sound_after calls sent.queueId).sweep now.toNat
    have absent : (((Relay.after P calls).mailbox P sent.queueId).sweep now.toNat).findMessage
        ack.messageId = none := by
      refine List.find?_eq_none.mpr fun row member => ?_
      have apart := sound.apart row member stone member'
      simpa [same, sameId, eq_comm] using apart
    rw [outcomes.alreadyDeleted absent ⟨stone, member', sameId ▸ same⟩]
    rfl

end

/-- Lost requests and lost answers are safe to retry. After a message was stored, and as
long as its mailbox is not deleted, the answer to the same send request and to every
genuine acknowledgement of the message is determined by the history. -/
theorem retries_are_answered (calls before later : List (Call P)) (sent : SendRequest)
    (storedAt now : UInt64) (run : Resubmits P calls before sent storedAt later now) :
    ((Relay.after P calls).step P (.enqueue sent now)).1 =
      (if sent.expiresAt ≤ now then .error .invalidExpiry
        else if (since P before sent storedAt later).any
          (acknowledges sent.queueId sent.messageId) then .error .messageGone
        else .ok (.enqueued .duplicate)) ∧
    ∀ ack : AckRequest, ack.queueId = sent.queueId → ack.messageId = sent.messageId →
      ack.packetHash = digest P sent.packet →
      (∃ key, mailboxKey P (Relay.after P calls).image.tables sent.queueId .receiveKey = .ok key ∧
          key.verify ack.signingBytes ack.signature = true) →
      now < ack.validUntil → ack.validUntil.toNat ≤ now.toNat + 300 →
      (now < sent.expiresAt → (since P before sent storedAt later).any
          (acknowledges sent.queueId sent.messageId) = false →
        ((Relay.after P calls).step P (.acknowledge ack now)).1 = .ok (.acknowledged .deleted)) ∧
      ∀ entry ∈ since P before sent storedAt later,
        acknowledges sent.queueId sent.messageId entry = true →
        now.toNat < entry.1.clock + 604800 →
        ((Relay.after P calls).step P (.acknowledge ack now)).1 =
          .ok (.acknowledged .alreadyDeleted) :=
  ⟨run.enqueue_again, fun _ sameQueue sameId samePacket signed future near =>
    run.acknowledge_again sameQueue sameId samePacket signed future near⟩

namespace LostAnswers

def owner : MailboxOwner .symbolic := .symbolic 1
def sent : SendRequest := owner.senderCapability.authorize (.fill 16 9) [1, 2, 3] 1000
def acked : AckRequest :=
  owner.receiverCapability.authorizeAck
    ⟨⟨1, .fill 16 0, .fill 16 9, 0, ""⟩, ⟨owner.queueId, .fill 16 9, [1, 2, 3], 1000⟩⟩ 300

def before : List (Call .symbolic) := [.register (owner.registration (.fill 16 5) 160) 100]
def later : List (Call .symbolic) := [.reopen 102, .acknowledge acked 110]

/-- The message was stored and acknowledged, but neither answer arrived. -/
def calls : List (Call .symbolic) := before ++ .enqueue sent 101 :: later

end LostAnswers

open LostAnswers in
theorem retries_are_answered_lost :
    ((Relay.after .symbolic calls).step .symbolic (.enqueue sent 120)).1 = .error .messageGone ∧
      ((Relay.after .symbolic calls).step .symbolic (.acknowledge acked 120)).1 =
        .ok (.acknowledged .alreadyDeleted) := by
  have answers := retries_are_answered calls before later sent 101 120
    ⟨⟨rfl, by unfold Nondecreasing; decide, by decide, by decide +kernel, by decide +kernel⟩,
      by decide⟩
  refine ⟨answers.1.trans (by decide +kernel), ?_⟩
  exact (answers.2 acked rfl rfl rfl ⟨owner.receive.publicKey, by decide +kernel⟩ (by decide)
    (by decide)).2 (.acknowledge acked 110, .ok (.acknowledged .deleted)) (by decide +kernel)
    (by decide) (by decide)

end Relay

end SecureMessenger
