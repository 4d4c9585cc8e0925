import SecureMessenger.Relay.Behaviour
import SecureMessenger.Capability.Authority

/-!
# Isolation between mailboxes

Two runs are compared: a run of the relay, and the run that keeps only the calls
addressed to one queue. Their tables differ at every step, because each call sweeps
all mailboxes or rolls its sweep back. What they share is the mailbox of that queue
up to rows that have expired by now; and since every operation begins with a sweep
at its own time, its outcome depends on nothing else.

Both runs are compared with the mailbox machine on its own, which sees no other
mailbox at all.
-/

namespace SecureMessenger

open Machine Fallible

variable {P : Primitives}

namespace Mailbox

variable {m m' : Mailbox} {time : Nat}

/-- The mailboxes differ at most in rows that have expired. -/
def Agree (time : Nat) (m m' : Mailbox) : Prop := m.sweep time = m'.sweep time

theorem Agree.later (agree : Agree time m m') {now : Nat} (later : time ≤ now) :
    Agree now m m' := by
  rw [Agree, ← m.sweep_sweep (Int.ofNat_le.mpr later), agree,
    m'.sweep_sweep (Int.ofNat_le.mpr later)]

theorem Agree.purge {now : UInt64} (agree : Agree now.toNat m m') : m.purge now = m'.purge now := by
  cases fits : toI64 now with
  | error e => simp only [Mailbox.purge, fits, error_bind]
  | ok value =>
      obtain ⟨_, rfl⟩ := toI64_eq_ok.mp fits
      simp only [Mailbox.purge, fits, ok_bind]
      rw [agree]

/-- Mailboxes that agree give the same reply and agree afterwards. -/
theorem Agree.transact {α : Type} {now : Nat} (agree : Agree now m m') (wrap : α → Answer)
    {body body' : Except LabError (α × Mailbox)} (same : body = body') :
    (m.transact wrap body).1 = (m'.transact wrap body').1 ∧
      Agree now (m.transact wrap body).2 (m'.transact wrap body').2 := by
  subst same
  cases body with
  | error e => exact ⟨rfl, agree⟩
  | ok result => exact ⟨rfl, rfl⟩

theorem Agree.step {call : Call P} (agree : Agree call.clock m m') :
    (m.step P call).1 = (m'.step P call).1 ∧
      Agree call.clock (m.step P call).2 (m'.step P call).2 := by
  have same : m.purge call.now = m'.purge call.now := agree.purge
  cases call with
  | register request now =>
      exact agree.transact _ (by simp only [register, Call.now] at same ⊢; rw [same])
  | enqueue request now =>
      exact agree.transact _ (by simp only [enqueue, Call.now] at same ⊢; rw [same])
  | fetch request now =>
      exact agree.transact _ (by simp only [fetch, Call.now] at same ⊢; rw [same])
  | acknowledge request now =>
      exact agree.transact _ (by simp only [acknowledge, Call.now] at same ⊢; rw [same])
  | deleteMailbox request now =>
      exact agree.transact _ (by simp only [deleteMailbox, Call.now] at same ⊢; rw [same])
  | purgeExpired | queuedMessageCountAt | reopen => exact ⟨rfl, agree⟩

/-- Standing by is invisible up to expired rows, unless a digest collides. -/
theorem Bystander.agree {collision : Prop} (free : ¬ collision) {now : UInt64} {m'' : Mailbox}
    (bystander : Bystander collision now m m') (agree : Agree now.toNat m m'') :
    Agree now.toNat m' m'' := by
  cases bystander with
  | untouched => exact agree
  | swept => exact (m.sweep_sweep (Int.le_refl _)).trans agree
  | retired _ collides => exact absurd collides free

end Mailbox

namespace Relay

/-- The call is addressed to this queue. -/
def addressed (q : QueueId) (call : Call P) : Bool := call.queueId? = some q

/-- What the relay answers on behalf of one queue is what its mailbox answers
when it is left alone with the calls addressed to it. -/
theorem filter_history (injective : Function.Injective fun q : QueueId => digest P q.toList)
    (q : QueueId) {calls : List (Call P)} (timed : Nondecreasing Call.clock calls) :
    (history P calls).filter (fun entry => addressed q entry.1) =
      trace (Mailbox.step P) Mailbox.absent (calls.filter (addressed q)) := by
  have free : ¬ Collides P q := by
    rintro ⟨q', other, same⟩
    exact other (injective same)
  refine filter_trace_eq (addressed q)
    (fun time (r : Relay) m => r.Current ∧ Mailbox.Agree time (r.mailbox P q) m) ?_ ?_
    ⟨current_empty, rfl⟩ (fun _ _ => Nat.zero_le _) timed
  · rintro time r m call ⟨current, agree⟩ later own
    obtain ⟨reply, view⟩ := r.step_own (of_decide_eq_true own)
    obtain ⟨sameReply, agree'⟩ := (agree.later later).step
    rw [reply, view]
    exact ⟨sameReply, current_step current call, agree'⟩
  · rintro time r m call ⟨current, agree⟩ later other
    refine ⟨current_step current call, ?_⟩
    exact (step_other current (of_decide_eq_false other)).agree free (agree.later later)

/-- Isolation. In a run with nondecreasing clock, the replies to the calls addressed
to one queue are those of the run in which all other calls are deleted. -/
theorem mailbox_isolation
    (injective : Function.Injective fun q : QueueId => digest P q.toList)
    (calls : List (Call P)) (timed : Nondecreasing Call.clock calls) (q : QueueId) :
    (history P calls).filter (fun entry => addressed q entry.1) =
      history P (calls.filter (addressed q)) := by
  have alone := filter_history injective q (timed.filter (addressed q))
  have kept : (history P (calls.filter (addressed q))).filter (fun entry => addressed q entry.1) =
      history P (calls.filter (addressed q)) := by
    rw [List.filter_eq_self]
    intro entry member
    exact (List.mem_filter.mp (fst_mem_of_mem_trace member)).2
  calc (history P calls).filter (fun entry => addressed q entry.1)
      = trace (Mailbox.step P) Mailbox.absent (calls.filter (addressed q)) :=
        filter_history injective q timed
    _ = trace (Mailbox.step P) Mailbox.absent
          ((calls.filter (addressed q)).filter (addressed q)) := by
        simp only [List.filter_filter, Bool.and_self]
    _ = (history P (calls.filter (addressed q))).filter (fun entry => addressed q entry.1) :=
        alone.symm
    _ = history P (calls.filter (addressed q)) := kept

namespace Neighbours

def here : MailboxOwner .symbolic := .symbolic 1
def elsewhere : MailboxOwner .symbolic := .symbolic 11
def sent : SendRequest := here.senderCapability.authorize (.fill 16 1) [1] 120

/-- Calls to two mailboxes, a failing one among them, and a sweep. -/
def calls : List (Call .symbolic) :=
  [.register (here.registration (.fill 16 5) 160) 100,
    .register (elsewhere.registration (.fill 16 5) 160) 100,
    .enqueue sent 101,
    .enqueue (elsewhere.senderCapability.authorize (.fill 16 1) [2] 900) 102,
    .fetch (here.receiverCapability.authorizeFetch (.fill 16 7) 200) 103,
    .fetch (here.receiverCapability.authorizeFetch (.fill 16 7) 200) 104,
    .purgeExpired 125,
    .fetch (here.receiverCapability.authorizeFetch (.fill 16 8) 200) 130]

end Neighbours

open Neighbours in
theorem mailbox_isolation_neighbours :
    (history .symbolic (calls.filter (addressed here.queueId))).map Prod.snd =
      [.ok (.registered true), .ok (.enqueued .stored), .ok (.fetched
        [⟨here.queueId, .fill 16 1, [1], 120, sent.signature⟩]), .error .unauthorized,
        .ok (.fetched [])] ∧
    (history .symbolic calls).filter (fun entry => addressed here.queueId entry.1) =
      history .symbolic (calls.filter (addressed here.queueId)) :=
  ⟨by decide +kernel,
    mailbox_isolation Primitives.symbolic_digest_injective calls
      (by unfold Nondecreasing; decide) here.queueId⟩

end Relay

end SecureMessenger
