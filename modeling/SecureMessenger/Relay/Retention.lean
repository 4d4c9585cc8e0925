import SecureMessenger.Relay.Commit
import SecureMessenger.Capability.Authority

/-!
# How long the relay keeps what it stores

Four tables have deadlines: a message and a tombstone are kept for at most a week,
a nonce for at most five minutes. A successful call first deletes what has expired
and then inserts at most one row per table, with a deadline inside its window; a
failed call changes nothing. So the bounds hold at the clock value of the latest
success, whatever failed since.

Deadlines are unsigned words in a request and signed ones in the database. Sums of
a clock value and a window saturate, and every stored value is converted with a
check; read as natural numbers, no comparison and no stored deadline is off.
-/

namespace SecureMessenger

open Fallible Machine

variable {P : Primitives}

/-- Every deadline lies in the future of `time`, inside the window of its table. -/
structure Tables.Retained (time : Nat) (t : Tables) : Prop where
  messages : ∀ row ∈ t.messages.contents,
    time < row.expiresAt ∧ row.expiresAt ≤ time + 604800
  tombstones : ∀ row ∈ t.tombstones.contents,
    time < row.deleteAfter ∧ row.deleteAfter ≤ time + 604800
  requestNonces : ∀ row ∈ t.requestNonces.contents,
    time < row.deleteAfter ∧ row.deleteAfter ≤ time + 300
  registrationNonces : ∀ row ∈ t.registrationNonces.contents,
    time < row.deleteAfter ∧ row.deleteAfter ≤ time + 300

/-- A committed call renews the bounds at its own clock value. -/
theorem Tables.Retained.commit {t t' : Tables} {time : Nat} (retained : t.Retained time)
    {call : Call P} {answer : Answer} (later : time ≤ call.clock)
    (committed : call.commits P t = .ok (answer, t')) : t'.Retained call.clock := by
  have arises := Call.commits_arises committed
  obtain ⟨_, bounded⟩ := Call.commits_bounded committed
  constructor
  case messages =>
    intro row member
    obtain ⟨old, unexpired⟩ | new := arises.messages row member
    · have := retained.messages row old
      omega
    · cases call <;> cases new
      obtain ⟨_, ⟨future, near⟩, _⟩ := bounded
      simp only [Mailbox.messageOf, Call.clock, Call.now]
      omega
  case tombstones =>
    intro row member
    obtain ⟨old, unexpired⟩ | new := arises.tombstones row member
    · have := retained.tombstones row old
      omega
    · cases call <;> cases new
      simp only [Call.clock, Call.now]
      omega
  case requestNonces =>
    intro row member
    obtain ⟨old, unexpired⟩ | new := arises.requestNonces row member
    · have := retained.requestNonces row old
      omega
    · cases call <;> cases new
      obtain ⟨⟨future, near⟩, _⟩ := bounded
      simp only [Call.clock, Call.now]
      omega
  case registrationNonces =>
    intro row member
    obtain ⟨old, unexpired⟩ | new := arises.registrationNonces row member
    · have := retained.registrationNonces row old
      omega
    · cases call <;> cases new
      obtain ⟨⟨future, near⟩, _⟩ := bounded
      simp only [Call.clock, Call.now]
      omega

theorem Tables.retained_empty (time : Nat) : Tables.empty.Retained time := by
  constructor <;> intro row member <;> cases member

/-- The clock value and the deadline that a call brings along. -/
def Call.times : Call P → List UInt64
  | register request now => [now, request.validUntil]
  | enqueue request now => [now, request.expiresAt]
  | fetch request now => [now, request.validUntil]
  | acknowledge request now => [now, request.validUntil]
  | deleteMailbox request now => [now, request.validUntil]
  | purgeExpired now | queuedMessageCountAt now | reopen now => [now]

/-- A tombstone is left only if its deadline fits into the database. -/
theorem Call.clock_of_deleted {t t' : Tables} (call : Call P)
    (committed : call.commits P t = .ok (.acknowledged .deleted, t')) :
    call.clock + 604800 < 2 ^ 63 := by
  obtain ⟨_, bounded⟩ := Call.commits_bounded committed
  cases call with
  | acknowledge request now => exact bounded.2 rfl
  | register | enqueue | fetch | deleteMailbox | purgeExpired | queuedMessageCountAt | reopen =>
      obtain ⟨_, _, other⟩ := bind_eq_ok.mp committed
      cases other

/-- The clock value of the latest entry that was answered with success. -/
def latestSuccess (entries : List (Call P × Reply)) : Option Nat :=
  entries.foldl (fun time entry =>
    match entry.2 with
    | .ok _ => some entry.1.clock
    | .error _ => time) none

theorem latestSuccess_concat_ok (entries : List (Call P × Reply)) (call : Call P)
    (answer : Answer) : latestSuccess (entries ++ [(call, .ok answer)]) = some call.clock := by
  rw [latestSuccess, List.foldl_append]
  rfl

theorem latestSuccess_concat_error (entries : List (Call P × Reply)) (call : Call P)
    (e : LabError) : latestSuccess (entries ++ [(call, .error e)]) = latestSuccess entries := by
  rw [latestSuccess, List.foldl_append]
  rfl

/-- The latest success is the clock value of an entry. -/
theorem mem_of_latestSuccess {entries : List (Call P × Reply)} {time : Nat}
    (success : latestSuccess entries = some time) : ∃ entry ∈ entries, entry.1.clock = time := by
  induction entries using List.reverseRecOn with
  | nil => cases success
  | append_singleton entries entry ih =>
      obtain ⟨call, reply⟩ := entry
      cases reply with
      | ok answer =>
          rw [latestSuccess_concat_ok] at success
          exact ⟨(call, .ok answer), by simp, Option.some.inj success⟩
      | error e =>
          rw [latestSuccess_concat_error] at success
          obtain ⟨entry, member, same⟩ := ih success
          exact ⟨entry, List.mem_append_left _ member, same⟩

namespace Relay

/-- The latest success of a run is not after the next call. -/
theorem latestSuccess_le {calls : List (Call P)} {call : Call P} {time : Nat}
    (timed : Nondecreasing Call.clock (calls ++ [call]))
    (success : latestSuccess (history P calls) = some time) : time ≤ call.clock := by
  obtain ⟨entry, member, rfl⟩ := mem_of_latestSuccess success
  exact (List.pairwise_append.mp timed).2.2 entry.1 (fst_mem_of_mem_trace member) call
    (List.mem_singleton.mpr rfl)

/-- The bounds hold at the latest success; before it the relay is as created. -/
theorem retained_after {calls : List (Call P)} (timed : Nondecreasing Call.clock calls) :
    (latestSuccess (history P calls) = none → Relay.after P calls = Relay.empty) ∧
    ∀ time, latestSuccess (history P calls) = some time →
      (Relay.after P calls).image.tables.Retained time := by
  induction calls using List.reverseRecOn with
  | nil => exact ⟨fun _ => rfl, fun time success => by cases success⟩
  | append_singleton calls call ih =>
      obtain ⟨untouched, retained⟩ := ih timed.left
      rw [history_concat, after_concat]
      cases reply : ((Relay.after P calls).step P call).1 with
      | error e =>
          rw [latestSuccess_concat_error, step_error reply]
          exact ⟨untouched, retained⟩
      | ok answer =>
          rw [latestSuccess_concat_ok]
          refine ⟨(by rintro ⟨⟩), fun time success => ?_⟩
          obtain rfl := Option.some.inj success
          obtain ⟨tables, committed, image⟩ := step_ok (current_after calls) reply
          rw [image]
          cases before : latestSuccess (history P calls) with
          | none =>
              rw [untouched before] at committed
              exact (Tables.retained_empty call.clock).commit (Nat.le_refl _) committed
          | some time =>
              exact (retained time before).commit (latestSuccess_le timed before) committed

/-- A clock value or deadline that the database cannot hold makes a call fail,
except that the deadline of an acknowledgement is not stored. -/
theorem oversized_refused {r : Relay} (current : r.Current) {call : Call P}
    (large : ∃ value ∈ call.times, 2 ^ 63 ≤ value.toNat) :
    (∃ e, (r.step P call).1 = .error e ∧ (r.step P call).2 = r) ∨
    ∃ request now, call = .acknowledge request now ∧ now.toNat < 2 ^ 63 ∧
      (r.step P call).1 = .ok (.acknowledged .alreadyDeleted) := by
  cases reply : (r.step P call).1 with
  | error e => exact .inl ⟨e, rfl, step_error reply⟩
  | ok answer =>
      obtain ⟨tables, committed, _⟩ := step_ok current reply
      obtain ⟨representable, bounded⟩ := Call.commits_bounded committed
      obtain ⟨value, member, large⟩ := large
      -- The clock value was converted, so the large value is the request's deadline.
      have deadline : ∀ other : UInt64, call.times = [call.now, other] → 2 ^ 63 ≤ other.toNat := by
        intro other times
        rw [times, List.mem_pair] at member
        obtain rfl | rfl := member
        · exact absurd representable (Nat.not_lt.mpr large)
        · exact large
      cases call with
      | register request now =>
          exact absurd bounded.2 (Nat.not_lt.mpr (deadline request.validUntil rfl))
      | enqueue request now =>
          exact absurd bounded.2.2 (Nat.not_lt.mpr (deadline request.expiresAt rfl))
      | fetch request now =>
          exact absurd bounded.2 (Nat.not_lt.mpr (deadline request.validUntil rfl))
      | acknowledge request now =>
          refine .inr ⟨request, now, rfl, representable, ?_⟩
          obtain ⟨⟨outcome, _, _⟩, _, same⟩ := bind_eq_ok.mp committed
          cases same
          cases outcome with
          | alreadyDeleted => rfl
          | deleted =>
              have fits := bounded.2 rfl
              have near := bounded.1.near
              have := deadline request.validUntil rfl
              omega
      | deleteMailbox request now =>
          exact absurd bounded.2 (Nat.not_lt.mpr (deadline request.validUntil rfl))
      | purgeExpired now | queuedMessageCountAt now | reopen now =>
          rw [List.mem_singleton.mp member] at large
          exact absurd representable (Nat.not_lt.mpr large)

/-- Along every run with a nondecreasing clock the four tables keep their deadlines
within the budget at the latest success. Sums and conversions of times are exact or
refused; a value that does not fit makes the call fail without a trace, unless it is
the deadline of an acknowledgement, which is compared but never stored. -/
theorem retention_budget (calls : List (Call P)) (timed : Nondecreasing Call.clock calls) :
    (latestSuccess (history P calls) = none → Relay.after P calls = Relay.empty) ∧
    (∀ time, latestSuccess (history P calls) = some time →
      (Relay.after P calls).image.tables.Retained time) ∧
    (∀ deadline now : UInt64, validateRequestTime deadline now = .ok () ↔
      now.toNat < deadline.toNat ∧ deadline.toNat ≤ now.toNat + 300) ∧
    (∀ deadline now : UInt64, validateMessageExpiry deadline now = .ok () ↔
      now.toNat < deadline.toNat ∧ deadline.toNat ≤ now.toNat + 604800) ∧
    (∀ (now : UInt64) (stored : Int), toI64 (saturatingAdd now tombstoneTtlSeconds) = .ok stored ↔
      now.toNat + 604800 < 2 ^ 63 ∧ stored = now.toNat + 604800) ∧
    (∀ (value : UInt64) (stored : Int), toI64 value = .ok stored ↔
      value.toNat < 2 ^ 63 ∧ stored = value.toNat) ∧
    ∀ call : Call P,
      (∀ e, ((Relay.after P calls).step P call).1 = .error e →
        ((Relay.after P calls).step P call).2 = Relay.after P calls) ∧
      (((Relay.after P calls).step P call).1 = .ok (.acknowledged .deleted) →
        call.clock + 604800 < 2 ^ 63) ∧
      ((∃ value ∈ call.times, 2 ^ 63 ≤ value.toNat) →
        (∃ e, ((Relay.after P calls).step P call).1 = .error e ∧
          ((Relay.after P calls).step P call).2 = Relay.after P calls) ∨
        ∃ request now, call = .acknowledge request now ∧ now.toNat < 2 ^ 63 ∧
          ((Relay.after P calls).step P call).1 = .ok (.acknowledged .alreadyDeleted)) := by
  obtain ⟨untouched, retained⟩ := retained_after timed
  have week : tombstoneTtlSeconds.toNat = 604800 := rfl
  refine ⟨untouched, retained, fun _ _ => validateRequestTime_eq_ok,
    fun _ _ => validateMessageExpiry_eq_ok, ?_, fun _ _ => toI64_eq_ok, ?_⟩
  · intro now stored
    rw [toI64_eq_ok, toNat_saturatingAdd]
    omega
  · intro call
    refine ⟨fun e failed => step_error failed, fun deleted => ?_,
      oversized_refused (current_after calls)⟩
    obtain ⟨tables, committed, _⟩ := step_ok (current_after calls) deleted
    exact call.clock_of_deleted committed

namespace Horizon

def owner : MailboxOwner .symbolic := .symbolic 1

/-- The envelope of the one message, as its recipient opened it. -/
def opened : OpenedMessage :=
  ⟨⟨1, .fill 16 9, .fill 16 1, 0, ""⟩, ⟨owner.queueId, .fill 16 1, [1], 9223372036854171107⟩⟩

/-- A message is stored and acknowledged at the last moment at which the deadline of
a tombstone still fits into the database. -/
def calls : List (Call .symbolic) :=
  [.register (owner.registration (.fill 16 5) 9223372036854171067) 9223372036854171007,
    .enqueue (owner.senderCapability.authorize (.fill 16 1) [1] 9223372036854171107)
      9223372036854171007,
    .acknowledge (owner.receiverCapability.authorizeAck opened 9223372036854171207)
      9223372036854171007]

/-- The acknowledgement is repeated a week later with a deadline past the largest
signed word. -/
def again : Call .symbolic :=
  .acknowledge (owner.receiverCapability.authorizeAck opened 9223372036854775858)
    9223372036854775708

end Horizon

open Horizon in
theorem retention_budget_horizon :
    latestSuccess (history .symbolic calls) = some 9223372036854171007 ∧
    (Relay.after .symbolic calls).image.tables.tombstones.contents.map TombstoneRow.deleteAfter =
      [2 ^ 63 - 1] ∧
    (Relay.after .symbolic calls).image.tables.Retained 9223372036854171007 :=
  ⟨by decide +kernel, by decide +kernel,
    (retention_budget calls (by unfold Nondecreasing; decide)).2.1 _ (by decide +kernel)⟩

open Horizon in
/-- The deadline of a repeated acknowledgement need not fit into the database. -/
theorem oversized_acknowledgement_accepted :
    ¬ ∀ (calls : List (Call .symbolic)) (call : Call .symbolic),
      Nondecreasing Call.clock (calls ++ [call]) →
      (∃ value ∈ call.times, 2 ^ 63 ≤ value.toNat) →
      ∃ e, ((Relay.after .symbolic calls).step .symbolic call).1 = .error e ∧
        ((Relay.after .symbolic calls).step .symbolic call).2 = Relay.after .symbolic calls := by
  intro refused
  have accepted : ((Relay.after .symbolic calls).step .symbolic again).1 =
      .ok (.acknowledged .alreadyDeleted) := by decide +kernel
  obtain ⟨e, failed, _⟩ := refused calls again (by unfold Nondecreasing; decide)
    ⟨9223372036854775858, by decide, by decide⟩
  rw [accepted] at failed
  cases failed

end Relay

end SecureMessenger
