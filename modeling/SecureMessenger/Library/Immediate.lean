import Mathlib.Logic.Function.Basic
import SecureMessenger.Library.Fallible
import SecureMessenger.Library.Machine

/-!
# Immediate transactions of several connections

Several connections work on one store, statement by statement and in any order. A call
may be refused without a look at the store. Otherwise its connection may look at what is
committed, one statement at a time, and then either reads the answer from one more
statement or runs a transaction. A transaction takes the write lock when it begins, sees
and changes a working copy, and replaces what is committed at its end. Any statement may
fail for reasons of its own, a connection may vanish at any point, and a final `COMMIT`
that is cut short may or may not have taken effect.

`settled` lists the calls in the order in which they were decided. Served one after the
other, each as a whole, they get the answers noted there and leave what is committed.
-/

namespace Immediate

open Fallible Machine

variable {δ ε α β κ : Type}

/-- The rest of a transaction: its next statement with what follows each answer. A query
reads the content; an execution changes it and reports a number of rows. -/
inductive Body (δ ε α : Type)
  | done (value : α)
  | fail (error : ε)
  | query (read : δ → Body δ ε α)
  | execute (update : δ → Except ε (Nat × δ)) (next : Nat → Body δ ε α)

namespace Body

def bind : Body δ ε α → (α → Body δ ε β) → Body δ ε β
  | done value, f => f value
  | fail error, _ => fail error
  | query read, f => query fun d => (read d).bind f
  | execute update next, f => execute update fun rows => (next rows).bind f

instance : Monad (Body δ ε) where
  pure := done
  bind := bind

/-- A decision that needs no statement. -/
def decide : Except ε α → Body δ ε α
  | .ok value => done value
  | .error error => fail error

/-- One query. -/
def select (read : δ → α) : Body δ ε α := query fun d => done (read d)

/-- One statement that changes the content. -/
def change (update : δ → Except ε (Nat × δ)) : Body δ ε Nat := execute update done

/-- The transaction as one function of the content it begins with. -/
def eval : Body δ ε α → δ → Except ε (α × δ)
  | done value, d => .ok (value, d)
  | fail error, _ => .error error
  | query read, d => (read d).eval d
  | execute update next, d =>
      match update d with
      | .ok (rows, d) => (next rows).eval d
      | .error error => .error error

@[simp] theorem eval_pure (value : α) (d : δ) :
    (pure value : Body δ ε α).eval d = .ok (value, d) := rfl

@[simp] theorem eval_fail (error : ε) (d : δ) : (fail error : Body δ ε α).eval d = .error error :=
  rfl

@[simp] theorem eval_decide (result : Except ε α) (d : δ) :
    (decide result).eval d = result.map fun value => (value, d) := by
  cases result <;> rfl

@[simp] theorem eval_select (read : δ → α) (d : δ) :
    (select read : Body δ ε α).eval d = .ok (read d, d) := rfl

@[simp] theorem eval_change (update : δ → Except ε (Nat × δ)) (d : δ) :
    (change update).eval d = update d := by
  rw [change, eval]
  cases update d <;> rfl

@[simp] theorem eval_bind (body : Body δ ε α) (f : α → Body δ ε β) (d : δ) :
    (body >>= f).eval d = body.eval d >>= fun result => (f result.1).eval result.2 := by
  induction body generalizing d with
  | done value => rfl
  | fail error => rfl
  | query read ih => exact ih d d
  | execute update next ih =>
      show (execute update fun rows => (next rows).bind f).eval d = _
      rw [eval, eval]
      cases update d with
      | error error => rfl
      | ok result => exact ih result.1 result.2

end Body

/-- Statements before the last part of a call. Each of them sees what is committed when it
runs, and one that does not like it gives the call up. -/
inductive Look (δ : Type)
  | pass
  | refuse
  | read (next : δ → Look δ)

namespace Look

/-- One look after the other. -/
def andThen : Look δ → Look δ → Look δ
  | pass, later => later
  | refuse, _ => refuse
  | read next, later => read fun d => (next d).andThen later

/-- The same statements inside a transaction. -/
def within (failure : ε) : Look δ → Body δ ε Unit
  | pass => .done ()
  | refuse => .fail failure
  | read next => .query fun d => (next d).within failure

end Look

/-- The last part of a call: one query, or a transaction. -/
inductive Last (δ ε α : Type)
  | read (answer : δ → Except ε α)
  | transact (body : Body δ ε α)

structure Operation (δ ε α : Type) where
  admission : Except ε Unit
  look : Look δ
  last : Last δ ε α

/-- The last part of a call as a whole; a transaction that fails leaves the content. -/
def Last.settle : Last δ ε α → δ → Except ε α × δ
  | read answer, d => (answer d, d)
  | transact body, d =>
      match body.eval d with
      | .ok (value, d') => (.ok value, d')
      | .error error => (.error error, d)

/-- The operation as a whole. What it looks at before its last part decides nothing. -/
def Operation.serve (operation : Operation δ ε α) (d : δ) : Except ε α × δ :=
  match operation.admission with
  | .ok () => operation.last.settle d
  | .error error => (.error error, d)

/-- What an operation with a transaction does, from the result of its two parts. -/
theorem Operation.serve_transact (admission : Except ε Unit) (look : Look δ) (body : Body δ ε α)
    (d : δ) : Operation.serve ⟨admission, look, .transact body⟩ d =
      match admission >>= fun _ => body.eval d with
      | .ok (value, d') => (.ok value, d')
      | .error error => (.error error, d) := by
  cases admission <;> rfl

/-- Where a connection is in its call. -/
inductive Phase (κ δ ε α : Type)
  | idle
  | ahead (call : κ) (look : Look δ)
  | inside (call : κ) (working : δ) (rest : Body δ ε α)

/-- The call a connection is in. -/
def Phase.call? : Phase κ δ ε α → Option κ
  | idle => none
  | ahead call _ => some call
  | inside call _ _ => some call

@[simp] theorem Phase.call?_idle : (idle : Phase κ δ ε α).call? = none := rfl

@[simp] theorem Phase.call?_ahead (call : κ) (look : Look δ) :
    (ahead call look : Phase κ δ ε α).call? = some call := rfl

@[simp] theorem Phase.call?_inside (call : κ) (working : δ) (rest : Body δ ε α) :
    (inside call working rest).call? = some call := rfl

/-- What a connection does next: it goes on, takes the lock, gives its call up, or ends it
with an answer and the content it leaves. -/
inductive Move (κ δ ε α : Type)
  | stay
  | become (phase : Phase κ δ ε α)
  | enter (call : κ) (body : Body δ ε α)
  | abort
  | settle (call : κ) (reply : Except ε α) (committed : δ)

/-- A call is made, a connection executes its next statement, that statement fails, or the
connection vanishes. If the statement is a `COMMIT`, the last two say whether it was
applied. -/
inductive Event (κ : Type)
  | call (connection : Nat) (call : κ)
  | advance (connection : Nat)
  | fault (connection : Nat) (applied : Bool)
  | crash (connection : Nat) (applied : Bool)

def Event.connection : Event κ → Nat
  | call connection _ | advance connection | fault connection _ | crash connection _ => connection

/-- A call with the connection that made it and its answer. -/
structure Settled (κ ε α : Type) where
  connection : Nat
  call : κ
  reply : Except ε α

namespace Phase

variable (program : κ → Operation δ ε α)

/-- A call is made only on a connection that has none. -/
def accept (committed : δ) (call : κ) : Phase κ δ ε α → Move κ δ ε α
  | idle =>
      match (program call).admission with
      | .ok () => .become (.ahead call (program call).look)
      | .error error => .settle call (.error error) committed
  | _ => .stay

/-- The next statement. A transaction that finds the lock taken waits. -/
def next (committed : δ) (locked : Bool) : Phase κ δ ε α → Move κ δ ε α
  | idle => .stay
  | ahead call (.read next) => .become (.ahead call (next committed))
  | ahead _ .refuse => .abort
  | ahead call .pass =>
      match (program call).last with
      | .read answer => .settle call (answer committed) committed
      | .transact body => if locked then .stay else .enter call body
  | inside call working (.done value) => .settle call (.ok value) working
  | inside call _ (.fail error) => .settle call (.error error) committed
  | inside call working (.query read) => .become (.inside call working (read working))
  | inside call working (.execute update next) =>
      match update working with
      | .ok (rows, working) => .become (.inside call working (next rows))
      | .error error => .settle call (.error error) committed

/-- The next statement does not come through. Only a `COMMIT` may have been applied. -/
def cut (applied : Bool) : Phase κ δ ε α → Move κ δ ε α
  | idle => .stay
  | inside call working (.done value) =>
      if applied then .settle call (.ok value) working else .abort
  | _ => .abort

end Phase

/-- What is committed, who holds the write lock, and the connections. -/
structure Engine (κ δ ε α : Type) where
  committed : δ
  holder : Option Nat
  phase : Nat → Phase κ δ ε α

namespace Engine

/-- Nobody has called yet. -/
def start (d : δ) : Engine κ δ ε α := ⟨d, none, fun _ => .idle⟩

/-- The call of a connection is over, and its lock is free if it had it. -/
def close (e : Engine κ δ ε α) (connection : Nat) (committed : δ) : Engine κ δ ε α where
  committed := committed
  holder := if e.holder = some connection then none else e.holder
  phase := Function.update e.phase connection .idle

def apply (e : Engine κ δ ε α) (connection : Nat) : Move κ δ ε α → Engine κ δ ε α
  | .stay => e
  | .become phase => { e with phase := Function.update e.phase connection phase }
  | .enter call body =>
      { e with
        holder := some connection
        phase := Function.update e.phase connection (.inside call e.committed body) }
  | .abort => e.close connection e.committed
  | .settle _ _ committed => e.close connection committed

variable (program : κ → Operation δ ε α) (failure : ε)

/-- What an event makes its connection do. -/
def move (e : Engine κ δ ε α) : Event κ → Move κ δ ε α
  | .call connection call => (e.phase connection).accept program e.committed call
  | .advance connection => (e.phase connection).next program e.committed e.holder.isSome
  | .fault connection applied => (e.phase connection).cut applied
  | .crash connection applied => (e.phase connection).cut applied

/-- What the caller is told. A call that is given up fails. After a fault the caller is told
of the fault, whatever became of the statement, and after a crash there is nobody to tell. -/
def reply (event : Event κ) : Move κ δ ε α → Option (Except ε α)
  | .abort =>
      match event with
      | .crash _ _ => none
      | _ => some (.error failure)
  | .settle _ reply _ =>
      match event with
      | .crash _ _ => none
      | .fault _ _ => some (.error failure)
      | _ => some reply
  | _ => none

def step (e : Engine κ δ ε α) (event : Event κ) : Option (Except ε α) × Engine κ δ ε α :=
  (reply failure event (e.move program event),
    e.apply event.connection (e.move program event))

/-- The call that an event decides. -/
def settles (e : Engine κ δ ε α) (event : Event κ) : Option (Settled κ ε α) :=
  match e.move program event with
  | .settle call reply _ => some ⟨event.connection, call, reply⟩
  | _ => none

/-- The state after some events. -/
def after (d : δ) (events : List (Event κ)) : Engine κ δ ε α :=
  run (step program failure) (start d) events

/-- The calls that were decided, in the order of the decisions. -/
def settled (d : δ) (events : List (Event κ)) : List (Settled κ ε α) :=
  collect (step program failure) (settles program) (start d) events

/-- A connection that is inside a transaction holds the lock, and the rest of its
transaction does to the working copy what the whole does to the committed content. -/
def Fits (e : Engine κ δ ε α) (connection : Nat) : Phase κ δ ε α → Prop
  | .idle => True
  | .ahead call _ => (program call).admission = .ok ()
  | .inside call working rest =>
      e.holder = some connection ∧ (program call).admission = .ok () ∧
        ∃ body, (program call).last = .transact body ∧ rest.eval working = body.eval e.committed

def Coherent (e : Engine κ δ ε α) : Prop :=
  ∀ connection, e.Fits program connection (e.phase connection)

/-- A move leads to a phase that fits, or decides a call as its service as a whole does;
the content changes only under the lock. -/
def Admissible (e : Engine κ δ ε α) (connection : Nat) : Move κ δ ε α → Prop
  | .stay | .abort => True
  | .become phase => e.Fits program connection phase
  | .enter call body =>
      e.holder = none ∧ (program call).admission = .ok () ∧ (program call).last = .transact body
  | .settle call reply committed =>
      (program call).serve e.committed = (reply, committed) ∧
        (committed = e.committed ∨ e.holder = some connection)

variable {program failure} {e : Engine κ δ ε α} {connection : Nat}

theorem serve_of_admitted {operation : Operation δ ε α} (admitted : operation.admission = .ok ())
    (d : δ) : operation.serve d = operation.last.settle d := by
  rw [Operation.serve, admitted]

/-- What the whole transaction of a phase that fits does, by what its rest does. -/
theorem Fits.serve {call : κ} {working : δ} {rest : Body δ ε α}
    (fits : e.Fits program connection (.inside call working rest)) :
    (program call).serve e.committed =
      match rest.eval working with
      | .ok (value, d) => (.ok value, d)
      | .error error => (.error error, e.committed) := by
  obtain ⟨_, admitted, body, last, same⟩ := fits
  rw [serve_of_admitted admitted, last, same]
  rfl

theorem admissible_accept (call : κ) :
    e.Admissible program connection ((e.phase connection).accept program e.committed call) := by
  unfold Phase.accept
  split
  · split
    · next admitted => exact admitted
    · next error refused =>
      refine ⟨?_, .inl rfl⟩
      rw [Operation.serve, refused]
  · trivial

theorem admissible_next (fits : e.Fits program connection (e.phase connection)) :
    e.Admissible program connection
      ((e.phase connection).next program e.committed e.holder.isSome) := by
  cases found : e.phase connection with
  | idle => trivial
  | ahead call look =>
      rw [found] at fits
      cases look with
      | read next => exact fits
      | refuse => trivial
      | pass =>
          rw [Phase.next]
          split
          · next answer last =>
            refine ⟨?_, .inl rfl⟩
            rw [serve_of_admitted fits, last]
            rfl
          · next body last =>
            split
            · trivial
            · next free => exact ⟨by simpa using free, fits, last⟩
  | inside call working rest =>
      rw [found] at fits
      have whole := fits.serve
      obtain ⟨holds, admitted, body, last, same⟩ := fits
      cases rest with
      | done value => exact ⟨whole, .inr holds⟩
      | fail error => exact ⟨whole, .inl rfl⟩
      | query read => exact ⟨holds, admitted, body, last, same⟩
      | execute update next =>
          rw [Body.eval] at whole same
          rw [Phase.next]
          split
          · next updated =>
            rw [updated] at same
            exact ⟨holds, admitted, body, last, same⟩
          · next updated =>
            rw [updated] at whole
            exact ⟨whole, .inl rfl⟩

theorem admissible_cut (fits : e.Fits program connection (e.phase connection)) (applied : Bool) :
    e.Admissible program connection ((e.phase connection).cut applied) := by
  unfold Phase.cut
  split
  · trivial
  · next found =>
    split
    · rw [found] at fits
      exact ⟨fits.serve, .inr fits.1⟩
    · trivial
  · trivial

/-- Every move of a coherent state is admissible. -/
theorem admissible_move (coherent : e.Coherent program) (event : Event κ) :
    e.Admissible program event.connection (e.move program event) := by
  cases event with
  | call connection call => exact admissible_accept call
  | advance connection => exact admissible_next (coherent connection)
  | fault connection applied => exact admissible_cut (coherent connection) applied
  | crash connection applied => exact admissible_cut (coherent connection) applied

/-- Another phase is untouched by a move that keeps the content and does not take the lock
away from it. -/
theorem Fits.mono {e' : Engine κ δ ε α} {phase : Phase κ δ ε α}
    (fits : e.Fits program connection phase)
    (locked : e.holder = some connection →
      e'.holder = some connection ∧ e'.committed = e.committed) :
    e'.Fits program connection phase := by
  cases phase with
  | idle => trivial
  | ahead => exact fits
  | inside call working rest =>
      obtain ⟨holds, admitted, body, last, same⟩ := fits
      obtain ⟨holds', kept⟩ := locked holds
      exact ⟨holds', admitted, body, last, by rw [kept, same]⟩

theorem Coherent.close (coherent : e.Coherent program) {committed : δ}
    (locked : committed = e.committed ∨ e.holder = some connection) :
    (e.close connection committed).Coherent program := by
  intro other
  by_cases own : other = connection
  · subst own
    simp only [Engine.close, Function.update_self]
    trivial
  · simp only [Engine.close, Function.update_of_ne own]
    refine (coherent other).mono fun holds => ?_
    have differs : e.holder ≠ some connection := by
      rw [holds]
      exact fun same => own (Option.some.inj same)
    exact ⟨by rw [if_neg differs, holds], locked.resolve_right differs⟩

theorem Coherent.apply (coherent : e.Coherent program) {move : Move κ δ ε α}
    (admissible : e.Admissible program connection move) :
    (e.apply connection move).Coherent program := by
  cases move with
  | stay => exact coherent
  | abort => exact coherent.close (.inl rfl)
  | settle call reply committed => exact coherent.close admissible.2
  | become phase =>
      intro other
      by_cases own : other = connection
      · subst own
        simp only [Engine.apply, Function.update_self]
        exact Fits.mono (e := e) admissible fun holds => ⟨holds, rfl⟩
      · simp only [Engine.apply, Function.update_of_ne own]
        exact (coherent other).mono fun holds => ⟨holds, rfl⟩
  | enter call body =>
      obtain ⟨free, admitted, last⟩ := admissible
      intro other
      by_cases own : other = connection
      · subst own
        simp only [Engine.apply, Function.update_self]
        exact ⟨rfl, admitted, body, last, rfl⟩
      · simp only [Engine.apply, Function.update_of_ne own]
        refine (coherent other).mono fun holds => ?_
        rw [free] at holds
        cases holds

theorem coherent_start (d : δ) : Coherent program (start d : Engine κ δ ε α) := fun _ => trivial

theorem coherent_after (program : κ → Operation δ ε α) (failure : ε) (d : δ)
    (events : List (Event κ)) :
    (after program failure d events).Coherent program :=
  invariant_run (fun e : Engine κ δ ε α => e.Coherent program)
    (fun _ event coherent => coherent.apply (admissible_move coherent event))
    (coherent_start d) events

theorem after_concat (d : δ) (events : List (Event κ)) (event : Event κ) :
    after program failure d (events ++ [event]) =
      ((after program failure d events).step program failure event).2 :=
  run_concat _ events event

theorem settled_concat (d : δ) (events : List (Event κ)) (event : Event κ) :
    settled program failure d (events ++ [event]) =
      settled program failure d events ++
        ((after program failure d events).settles program event).toList :=
  collect_concat _ events event

/-- What one event does to the content: nothing, or what the call it decides does as a
whole. -/
theorem committed_step (coherent : e.Coherent program) (failure : ε) (event : Event κ) :
    (e.settles program event = none →
      (e.step program failure event).2.committed = e.committed) ∧
    ∀ s, e.settles program event = some s →
      (program s.call).serve e.committed =
        (s.reply, (e.step program failure event).2.committed) := by
  have admissible := admissible_move coherent event
  unfold settles step
  generalize e.move program event = move at admissible ⊢
  cases move with
  | stay | become | enter | abort => exact ⟨fun _ => rfl, fun _ impossible => by cases impossible⟩
  | settle call reply committed =>
      refine ⟨fun impossible => (by cases impossible), ?_⟩
      rintro _ ⟨rfl⟩
      exact admissible.1

variable (program failure)

/-- The calls served one after the other, each as a whole. -/
def serial (d : δ) (call : κ) : Except ε α × δ := (program call).serve d

/-- Serialisability. The decided calls, served one after the other in the order of their
decisions, get the answers that were noted, and leave what is committed. -/
theorem settled_serial (d : δ) (events : List (Event κ)) :
    trace (serial program) d ((settled program failure d events).map Settled.call) =
        (settled program failure d events).map (fun s => (s.call, s.reply)) ∧
      run (serial program) d ((settled program failure d events).map Settled.call) =
        (after program failure d events).committed := by
  induction events using List.reverseRecOn with
  | nil => exact ⟨rfl, rfl⟩
  | append_singleton events event ih =>
      obtain ⟨answers, content⟩ := ih
      have coherent := coherent_after program failure d events
      obtain ⟨kept, served⟩ := committed_step coherent failure event
      rw [settled_concat, after_concat]
      cases decision : (after program failure d events).settles program event with
      | none =>
          rw [Option.toList_none, List.append_nil, kept decision]
          exact ⟨answers, content⟩
      | some s =>
          have whole := served s decision
          rw [← content] at whole
          rw [Option.toList_some, List.map_append, List.map_append, List.map_singleton,
            List.map_singleton, trace_concat, run_concat, answers, serial, whole]
          exact ⟨rfl, rfl⟩

variable {program failure}

theorem phase_apply_other {other : Nat} (differs : other ≠ connection) (move : Move κ δ ε α) :
    (e.apply connection move).phase other = e.phase other := by
  cases move <;> simp [apply, close, differs]

/-- An event of one connection leaves the others where they are and decides no call of
theirs. -/
theorem step_other {event : Event κ} (other : event.connection ≠ connection) :
    (e.step program failure event).2.phase connection = e.phase connection ∧
      ∀ s ∈ e.settles program event, s.connection ≠ connection := by
  refine ⟨phase_apply_other (Ne.symm other) _, ?_⟩
  intro s found
  unfold settles at found
  split at found
  · cases found
    exact other
  · cases found

/-- The call that a move decides. -/
def decision : Move κ δ ε α → Option κ
  | .settle call _ _ => some call
  | _ => none

end Engine

end Immediate
