import Mathlib.Data.List.Nodup
import SecureMessenger.Relay.Behaviour

/-!
# The representation invariant of a mailbox

A mailbox has at most one row, its messages have distinct ids, and without a row
it has no messages, tombstones or request nonces. The database enforces these by
its keys and foreign keys; here they are shown to hold along every run, whatever
the clocks and requests.
-/

namespace SecureMessenger

variable {P : Primitives}

namespace Mailbox

variable {m m' : Mailbox}

structure WellFormed (m : Mailbox) : Prop where
  single : m.rows.length ≤ 1
  distinct : (m.messages.map MessageRow.messageId).Nodup
  childless : m.rows = [] → m.messages = [] ∧ m.tombstones = [] ∧ m.requestNonces = []

theorem wellFormed_absent : absent.WellFormed where
  single := by simp [absent]
  distinct := by simp [absent]
  childless _ := ⟨rfl, rfl, rfl⟩

theorem WellFormed.sweep (sound : m.WellFormed) (now : Int) : (m.sweep now).WellFormed where
  single := sound.single
  distinct := sound.distinct.sublist (List.filter_sublist.map _)
  childless absent := by
    obtain ⟨messages, tombstones, nonces⟩ := sound.childless absent
    simp [Mailbox.sweep, messages, tombstones, nonces]

theorem WellFormed.stands (sound : m.WellFormed) {collision : Prop} {now : UInt64}
    (bystander : Bystander collision now m m') : m'.WellFormed := by
  cases bystander with
  | untouched => exact sound
  | swept => exact sound.sweep _
  | retired => exact { sound.sweep now.toNat with }

theorem WellFormed.noteRegistration (sound : m.WellFormed) (queueId : QueueId) (nonce : Nonce)
    (deleteAfter : Int) : (m.noteRegistration queueId nonce deleteAfter).WellFormed where
  single := by
    rw [rows_noteRegistration]
    exact sound.single
  distinct := by
    rw [messages_noteRegistration]
    exact sound.distinct
  childless := by
    rw [rows_noteRegistration, messages_noteRegistration, tombstones_noteRegistration,
      requestNonces_noteRegistration]
    exact sound.childless

theorem WellFormed.keeps (sound : m.WellFormed) {call : Call P} {reply : Reply}
    (effect : Effect P m call reply m') : m'.WellFormed := by
  have swept := fun now : Int => sound.sweep now
  cases effect with
  | refused => exact sound
  | registered request now =>
      refine ⟨by simp, ?_, fun absent => by cases absent⟩
      exact ((swept now.toNat).noteRegistration request.queueId request.nonce _).distinct
  | registeredAgain request now => exact (swept now.toNat).noteRegistration _ _ _
  | stored request now _ _ authorised _ fresh =>
      refine ⟨sound.single, ?_, fun absent => absurd absent authorised.live⟩
      refine Table.nodup_map_concat (swept now.toNat).distinct ?_
      intro row member own
      obtain ⟨stored, unexpired⟩ := mem_messages_sweep.mp member
      have expired := fresh row stored own
      omega
  | duplicate | alreadyDeleted => exact swept _
  | fetched request now _ authorised =>
      exact ⟨sound.single, (swept now.toNat).distinct,
        fun absent => absurd absent authorised.live⟩
  | deleted request now _ authorised =>
      refine ⟨sound.single, ?_, fun absent => absurd absent authorised.live⟩
      exact (swept now.toNat).distinct.sublist (List.filter_sublist.map _)
  | mailboxDeleted =>
      exact ⟨by simp [retire, absent], by simp [retire, absent], fun _ => ⟨rfl, rfl, rfl⟩⟩

/-- Messages with the same id are the same message. -/
theorem WellFormed.eq_of_messageId (sound : m.WellFormed) {row row' : MessageRow}
    (member : row ∈ m.messages) (member' : row' ∈ m.messages)
    (same : row.messageId = row'.messageId) : row = row' :=
  List.inj_on_of_nodup_map sound.distinct member member' same

end Mailbox

namespace Relay

/-- Every mailbox of every reachable relay is well formed. -/
theorem wellFormed_after (calls : List (Call P)) (q : QueueId) :
    ((Relay.after P calls).mailbox P q).WellFormed :=
  run_mailbox Mailbox.WellFormed (fun sound effect => sound.keeps effect)
    (fun sound bystander => sound.stands bystander) current_empty Mailbox.wellFormed_absent calls

end Relay

end SecureMessenger
