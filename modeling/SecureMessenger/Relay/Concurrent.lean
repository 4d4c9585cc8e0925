import SecureMessenger.Relay.Statements
import SecureMessenger.Relay.Opening
import SecureMessenger.Relay.Restart
import SecureMessenger.Relay.Retry

/-!
# Several relay handles on one file

Any number of handles open the same file and work on it at once, statement by statement.
Statements fail, processes vanish, and a `COMMIT` that was cut short may have taken effect
although its caller was told of a storage failure, or was not told anything.

The decided calls, in the order of their decisions, are a run of the machine of one handle.
What was shown of the runs of that machine therefore holds for all handles together: no
request takes effect twice, and a caller that lost an answer may repeat its request on any
handle. Handles that race to open a legacy file migrate it once.
-/

namespace SecureMessenger

open Machine Immediate

/-- What happens to the handles of one file. -/
abbrev HandleEvent (P : Primitives) := Immediate.Event (HandleCall P)

namespace Handles

section

variable (P : Primitives)

/-- The file and its handles after some events. -/
def after (image : Image) (events : List (HandleEvent P)) :
    Engine (HandleCall P) Image LabError Answer :=
  Engine.after (program P) .storage image events

/-- The decided calls of all handles. -/
def decided (image : Image) (events : List (HandleEvent P)) :
    List (Settled (HandleCall P) LabError Answer) :=
  Engine.settled (program P) .storage image events

/-- A decided call as an entry in the history of one handle. -/
def noted (s : Settled (HandleCall P) LabError Answer) : Option (Call P × Reply) :=
  s.call.call?.map fun call => (call, s.reply)

/-- The decided calls as a history of one handle. -/
def history (image : Image) (events : List (HandleEvent P)) : List (Call P × Reply) :=
  (decided P image events).filterMap (noted P)

/-- The calls of that history. -/
def calls (image : Image) (events : List (HandleEvent P)) : List (Call P) :=
  (history P image events).map Prod.fst

end

variable {P : Primitives}

/-- The reply to a call and what it does to the file do not depend on the events that the
handle has recorded. -/
theorem serve_image (r : Relay) (call : Call P) :
    Relay.serve P r.image call = (r.step P call).map id Relay.image := by
  have transact : ∀ {α : Type} (body : Except LabError (Committed α)) (answer : α → Answer),
      (((⟨r.image, []⟩ : Relay).transact body).map (·.map answer) id).map id Relay.image =
        ((r.transact body).map (·.map answer) id).map id Relay.image := by
    intro α body answer
    cases body <;> rfl
  cases call with
  | register | enqueue | fetch | acknowledge | deleteMailbox => exact transact _ _
  | purgeExpired now | queuedMessageCountAt now =>
      simp only [Relay.serve, Relay.step, Relay.queuedMessageCountAt, Relay.purgeExpired]
      cases purgeExpiredIn r.image.tables now <;> rfl
  | reopen now =>
      simp only [Relay.serve, Relay.step, Relay.reopen]
      cases openAt (some r.image) now <;> rfl

/-- Calls that are served one after the other, each as a whole, are a run of one handle. -/
theorem serial_history (requests : List (HandleCall P)) (r : Relay) :
    trace (Relay.step P) r (requests.filterMap HandleCall.call?) =
        (trace (Engine.serial (program P)) r.image requests).filterMap
          (fun served => served.1.call?.map fun call => (call, served.2)) ∧
      (run (Relay.step P) r (requests.filterMap HandleCall.call?)).image =
        run (Engine.serial (program P)) r.image requests := by
  induction requests generalizing r with
  | nil => exact ⟨rfl, rfl⟩
  | cons request requests ih =>
      rw [trace_cons, run_cons, Engine.serial]
      cases named : request.call? with
      | none =>
          have kept : ((program P request).serve r.image).2 = r.image := by
            cases request <;> first | rfl | cases named
          simp only [List.filterMap_cons, named, Option.map_none, kept]
          exact ih r
      | some call =>
          have whole := serve_program named r.image
          rw [serve_image r call] at whole
          obtain ⟨rest, last⟩ := ih (r.step P call).2
          simp only [List.filterMap_cons, named, Option.map_some, whole, trace_cons, run_cons]
          exact ⟨congrArg _ rest, last⟩

variable (image : Image) (events : List (HandleEvent P))

theorem calls_eq : calls P image events =
    ((decided P image events).map Settled.call).filterMap HandleCall.call? := by
  rw [calls, history, List.map_filterMap, List.filterMap_map]
  congr 1
  funext s
  simp only [noted, Option.map_map, Function.comp_def, Option.map_id']

/-- The decided calls of all handles, and what they leave, are a run of one handle. -/
theorem run_of_handles :
    trace (Relay.step P) ⟨image, []⟩ (calls P image events) = history P image events ∧
      (run (Relay.step P) ⟨image, []⟩ (calls P image events)).image =
        (after P image events).committed := by
  obtain ⟨answers, content⟩ := Engine.settled_serial (program P) .storage image events
  obtain ⟨entries, last⟩ := serial_history ((decided P image events).map Settled.call) ⟨image, []⟩
  rw [calls_eq, entries, last]
  refine ⟨?_, content⟩
  rw [decided, answers, List.filterMap_map]
  rfl

/-- In the histories of all handles together, a message that was stored is found by every
later submission of the same request. -/
theorem enqueue_after_stored (timed : Nondecreasing Call.clock (calls P .created events))
    {before later : List (Call P × Reply)} {sent : SendRequest} {storedAt now : UInt64}
    {reply : Reply}
    (split : history P .created events =
      before ++ (.enqueue sent storedAt, .ok (.enqueued .stored)) ::
        (later ++ [(.enqueue sent now, reply)]))
    (kept : ∀ entry ∈ later, Relay.removes sent.queueId entry = false) :
    reply =
      if sent.expiresAt ≤ now then .error .invalidExpiry
      else if later.any (Relay.acknowledges sent.queueId sent.messageId) then .error .messageGone
      else .ok (.enqueued .duplicate) := by
  rw [← (run_of_handles .created events).1] at split
  obtain ⟨inputs, first, rest⟩ := trace_eq_append split
  rw [List.map_cons, trace_cons, List.cons.injEq] at rest
  obtain ⟨stored, rest⟩ := rest
  obtain ⟨_, since, last⟩ := trace_eq_append rest.symm
  have since : later = Relay.since P (before.map Prod.fst) sent storedAt (later.map Prod.fst) :=
    since
  rw [List.map_cons, List.map_append, List.map_singleton, ← List.cons_append,
    ← List.append_assoc] at inputs
  rw [inputs] at timed
  have remembers : Relay.Remembers P
      (before.map Prod.fst ++ .enqueue sent storedAt :: later.map Prod.fst)
      (before.map Prod.fst) sent storedAt (later.map Prod.fst) now :=
    { split := rfl
      timed := timed.left
      earlier := fun call member =>
        (List.pairwise_append.mp timed).2.2 call member _ (List.mem_singleton_self _)
      stored := (congrArg Prod.snd stored).symm
      kept := by rwa [← since] }
  have again := remembers.enqueue_again
  rw [← since, Relay.after, run_append] at again
  rw [← again]
  exact congrArg Prod.snd (List.cons.inj last).1

/-- Lost answers are harmless. Over all handles of a file that was new at first, with faults
and crashes anywhere and clock values that do not decrease from decision to decision, every
signed send, fetch and acknowledgement takes effect at most once. If a send has taken effect,
whatever its caller was told, and its mailbox was not deleted since, then a repetition that is
decided, on any handle, is decided by what has become of the message: it has expired, it was
acknowledged, or it is still there. -/
theorem lost_answers_are_harmless (timed : Nondecreasing Call.clock (calls P .created events)) :
    ((∀ request, (history P .created events).countP (Relay.stores request) ≤ 1) ∧
      (∀ request, (history P .created events).countP (Relay.answers request) ≤ 1) ∧
      ∀ request, (history P .created events).countP (Relay.deletes request) ≤ 1) ∧
    ∀ (before later : List (Call P × Reply)) (sent : SendRequest) (storedAt now : UInt64)
      (reply : Reply),
      history P .created events =
        before ++ (.enqueue sent storedAt, .ok (.enqueued .stored)) ::
          (later ++ [(.enqueue sent now, reply)]) →
      (∀ entry ∈ later, Relay.removes sent.queueId entry = false) →
      reply =
        if sent.expiresAt ≤ now then .error .invalidExpiry
        else if later.any (Relay.acknowledges sent.queueId sent.messageId) then
          .error .messageGone
        else .ok (.enqueued .duplicate) := by
  refine ⟨?_, ?_⟩
  · rw [← (run_of_handles .created events).1]
    refine ⟨fun request => ?_, fun request => ?_, fun request => ?_⟩
    · exact (Relay.onceStored P request).countP_le_one Relay.current_empty timed
    · exact (Relay.onceAnswered P request).countP_le_one Relay.current_empty timed
    · exact (Relay.onceDeleted P request).countP_le_one Relay.current_empty timed
  · intro before later sent storedAt now reply split kept
    exact enqueue_after_stored events timed split kept

namespace CutCommit

def owner : MailboxOwner .symbolic := .symbolic 1
def sent : SendRequest := owner.senderCapability.authorize (.fill 16 9) [1, 2, 3] 1000

/-- Some statements of one handle. -/
def statements (handle count : Nat) : List (HandleEvent .symbolic) :=
  List.replicate count (.advance handle)

/-- The `COMMIT` of the first submission is applied but reported as a failure, and another
handle repeats the request. -/
def schedule : List (HandleEvent .symbolic) :=
  .call 0 (.register (owner.registration (.fill 16 5) 160) 100) :: statements 0 10 ++
    .call 0 (.enqueue sent 101) :: statements 0 9 ++ [.fault 0 true] ++
    .call 1 (.enqueue sent 102) :: statements 1 10

end CutCommit

open CutCommit in
theorem lost_answers_are_harmless_cut :
    ((after .symbolic .created (schedule.take 21)).step (program .symbolic) .storage
      (.fault 0 true)).1 = some (.error .storage) ∧
    (history .symbolic .created schedule).countP (Relay.stores sent) ≤ 1 ∧
    (Except.ok (Answer.enqueued .duplicate) : Reply) =
      if sent.expiresAt ≤ 102 then .error .invalidExpiry
      else if [].any (Relay.acknowledges (P := .symbolic) sent.queueId sent.messageId) then
        .error .messageGone
      else .ok (.enqueued .duplicate) := by
  have once := lost_answers_are_harmless (P := .symbolic) schedule
    (by unfold Nondecreasing; decide +kernel)
  refine ⟨by decide +kernel, once.1.1 sent, ?_⟩
  exact once.2 [(.register (owner.registration (.fill 16 5) 160) 100, .ok (.registered true))] []
    sent 101 102 _ (by decide +kernel) (by simp)

/-! Handles that race to open a file. -/

/-- A decided call that opened the file. -/
def opened (s : Settled (HandleCall P) LabError Answer) : Bool :=
  match s.call, s.reply with
  | .openAt _, .ok _ => true
  | _, _ => false

/-- A handle exists only after the file was opened. -/
def Disciplined (decided : List (Settled (HandleCall P) LabError Answer)) : Prop :=
  ∀ before s rest, decided = before ++ s :: rest → (∀ now, s.call ≠ .openAt now) →
    before.any opened = true

theorem Disciplined.left {decided : List (Settled (HandleCall P) LabError Answer)}
    {s : Settled (HandleCall P) LabError Answer} (h : Disciplined (decided ++ [s])) :
    Disciplined decided := by
  intro before t rest split other
  exact h before t (rest ++ [s]) (by rw [split]; simp) other

/-- What is known of the file before and after it was first opened. -/
structure Stage (image committed : Image) (everOpened : Bool) : Prop where
  untouched : everOpened = false → committed = image
  accepted : everOpened = true → image.Openable
  current : everOpened = true → (⟨committed, []⟩ : Relay).Current

/-- Opening as the statements do it. -/
theorem serve_openAt_cases (image : Image) (now : UInt64) :
    ((program P (.openAt now)).serve image = (.ok .reopened, image.migrated.swept now.toNat) ∧
      image.Openable ∧ now.toNat < 2 ^ 63) ∨
    ∃ e, (program P (.openAt now)).serve image = (.error e, image) ∧
      ¬ (image.Openable ∧ now.toNat < 2 ^ 63) := by
  rw [serve_openAt, Relay.serve, Relay.step, Relay.reopen]
  cases result : openAt (some image) now with
  | ok r =>
      obtain ⟨openable, fits, rfl⟩ := openAt_eq_ok.mp result
      exact .inl ⟨rfl, openable, fits⟩
  | error e =>
      refine .inr ⟨e, rfl, ?_⟩
      rintro ⟨openable, fits⟩
      rw [openAt_eq_ok.mpr ⟨openable, fits, rfl⟩] at result
      cases result

/-- A call on a current file keeps it current. -/
theorem serve_current {image : Image} (current : (⟨image, []⟩ : Relay).Current)
    (request : HandleCall P) :
    (⟨((program P request).serve image).2, []⟩ : Relay).Current := by
  cases named : request.call? with
  | none =>
      have kept : ((program P request).serve image).2 = image := by
        cases request <;> first | rfl | cases named
      rw [kept]
      exact current
  | some call =>
      rw [serve_program named]
      obtain ⟨version, manifest⟩ := Relay.current_step (P := P) current call
      exact ⟨version, manifest⟩

/-- A successful open, a failed one, or a call that only a handle can make. -/
theorem Stage.serve {image committed : Image}
    {decided : List (Settled (HandleCall P) LabError Answer)}
    (stage : Stage image committed (decided.any opened))
    {s : Settled (HandleCall P) LabError Answer} {committed' : Image}
    (disciplined : Disciplined (decided ++ [s]))
    (served : (program P s.call).serve committed = (s.reply, committed')) :
    Stage image committed' ((decided ++ [s]).any opened) := by
  obtain ⟨connection, call, reply⟩ := s
  rw [List.any_append, List.any_cons, List.any_nil, Bool.or_false]
  by_cases opens : ∃ now, call = .openAt now
  · obtain ⟨now, rfl⟩ := opens
    obtain ⟨success, openable, _⟩ | ⟨e, failure, _⟩ := serve_openAt_cases (P := P) committed now
    · rw [success] at served
      cases served
      have first : image.Openable := by
        cases everOpened : decided.any opened with
        | true => exact stage.accepted everOpened
        | false => exact stage.untouched everOpened ▸ openable
      exact ⟨fun never => by simp [opened] at never, fun _ => first, fun _ => ⟨rfl, rfl⟩⟩
    · rw [failure] at served
      cases served
      simpa [opened] using stage
  · have other : ∀ now, call ≠ .openAt now := fun now same => opens ⟨now, same⟩
    have unopened : opened (P := P) ⟨connection, call, reply⟩ = false := by
      cases call <;> first | rfl | exact absurd rfl (other _)
    have already := disciplined decided _ [] rfl other
    rw [unopened, Bool.or_false]
    refine ⟨fun never => ?_, stage.accepted, fun _ => ?_⟩
    · rw [already] at never
      cases never
    · have kept := serve_current (P := P) (stage.current already) call
      rw [served] at kept
      exact kept

namespace Race

/-- Both handles validate the legacy file before either of them begins its transaction.
The first then migrates it and stores a message before the second opens it. -/
def schedule : List (HandleEvent .symbolic) :=
  .call 0 (.openAt 100) :: .call 1 (.openAt 150) :: CutCommit.statements 0 8 ++
    CutCommit.statements 1 8 ++ CutCommit.statements 0 25 ++
    .call 0 (.enqueue CutCommit.sent 101) :: CutCommit.statements 0 10 ++
    CutCommit.statements 1 25

end Race

end Handles

end SecureMessenger
