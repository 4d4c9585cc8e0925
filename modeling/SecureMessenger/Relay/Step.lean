import SecureMessenger.Library.Machine
import SecureMessenger.Relay.Schema

/-!
# The relay as a machine

One input is one call of the public interface, or a close followed by a new
open of the same file. Requests are arbitrary values: nothing says that they
were built by a capability, and a request may be submitted any number of times.
A reopen that fails leaves the file as it was; continuing the run from there
covers every later successful open.
-/

namespace SecureMessenger

variable (P : Primitives)

/-- Commit the tables of a successful body, or roll back. -/
def Relay.transact {α : Type} (r : Relay) (body : Except LabError (Committed α)) :
    Except LabError α × Relay :=
  match body with
  | .ok (value, event, tables) =>
      (.ok value,
        { image := { r.image with tables }, auditEvents := r.auditEvents ++ [event] })
  | .error e => (.error e, r)

namespace Relay

def register (r : Relay) (request : MailboxRegistration P) (now : UInt64) :
    Except LabError Bool × Relay :=
  r.transact (registerIn P r.image.tables request now)

def enqueue (r : Relay) (request : SendRequest) (now : UInt64) :
    Except LabError EnqueueOutcome × Relay :=
  r.transact (enqueueIn P r.image.tables request now)

def fetch (r : Relay) (request : FetchRequest) (now : UInt64) :
    Except LabError (List StoredEnvelope) × Relay :=
  r.transact (fetchIn P r.image.tables request now)

def acknowledge (r : Relay) (request : AckRequest) (now : UInt64) :
    Except LabError AckOutcome × Relay :=
  r.transact (acknowledgeIn P r.image.tables request now)

def deleteMailbox (r : Relay) (request : DeleteMailboxRequest) (now : UInt64) :
    Except LabError Bool × Relay :=
  r.transact (deleteMailboxIn P r.image.tables request now)

/-- The sweep records an event only when it deleted a message. -/
def purgeExpired (r : Relay) (now : UInt64) : Except LabError Nat × Relay :=
  match purgeExpiredIn r.image.tables now with
  | .ok (deleted, tables) =>
      (.ok deleted,
        { image := { r.image with tables }
          auditEvents :=
            if 0 < deleted then r.auditEvents ++ [.expiredMessagesDeleted] else r.auditEvents })
  | .error e => (.error e, r)

def queuedMessageCountAt (r : Relay) (now : UInt64) : Except LabError Nat × Relay :=
  match r.purgeExpired now with
  | (.ok _, r) => (.ok r.image.tables.messages.contents.length, r)
  | (.error e, r) => (.error e, r)

/-- Drop the handle and open the same file again. -/
def reopen (r : Relay) (now : UInt64) : Except LabError Unit × Relay :=
  match openAt (some r.image) now with
  | .ok r => (.ok (), r)
  | .error e => (.error e, r)

end Relay

/-- One call of the relay's interface, with the clock value it is given. -/
inductive Call
  | register (request : MailboxRegistration P) (now : UInt64)
  | enqueue (request : SendRequest) (now : UInt64)
  | fetch (request : FetchRequest) (now : UInt64)
  | acknowledge (request : AckRequest) (now : UInt64)
  | deleteMailbox (request : DeleteMailboxRequest) (now : UInt64)
  | purgeExpired (now : UInt64)
  | queuedMessageCountAt (now : UInt64)
  | reopen (now : UInt64)
deriving DecidableEq

inductive Answer
  | registered (fresh : Bool)
  | enqueued (outcome : EnqueueOutcome)
  | fetched (envelopes : List StoredEnvelope)
  | acknowledged (outcome : AckOutcome)
  | mailboxDeleted (deleted : Bool)
  | purged (deleted : Nat)
  | counted (queued : Nat)
  | reopened
deriving DecidableEq

abbrev Reply := Except LabError Answer

namespace Call

variable {P}

def now : Call P → UInt64
  | register _ now | enqueue _ now | fetch _ now | acknowledge _ now | deleteMailbox _ now
  | purgeExpired now | queuedMessageCountAt now | reopen now => now

/-- The clock value as a natural number. -/
def clock (call : Call P) : Nat := call.now.toNat

/-- The mailbox a call is addressed to, if it names one. -/
def queueId? : Call P → Option QueueId
  | register request _ => some request.queueId
  | enqueue request _ => some request.queueId
  | fetch request _ => some request.queueId
  | acknowledge request _ => some request.queueId
  | deleteMailbox request _ => some request.queueId
  | purgeExpired _ | queuedMessageCountAt _ | reopen _ => none

end Call

def Relay.step (r : Relay) : Call P → Reply × Relay
  | .register request now => (r.register P request now).map (·.map .registered) id
  | .enqueue request now => (r.enqueue P request now).map (·.map .enqueued) id
  | .fetch request now => (r.fetch P request now).map (·.map .fetched) id
  | .acknowledge request now => (r.acknowledge P request now).map (·.map .acknowledged) id
  | .deleteMailbox request now => (r.deleteMailbox P request now).map (·.map .mailboxDeleted) id
  | .purgeExpired now => (r.purgeExpired now).map (·.map .purged) id
  | .queuedMessageCountAt now => (r.queuedMessageCountAt now).map (·.map .counted) id
  | .reopen now => (r.reopen now).map (·.map fun _ => .reopened) id

/-- The relay after a list of calls, starting from a newly created one. -/
def Relay.after (calls : List (Call P)) : Relay := Machine.run (Relay.step P) Relay.empty calls

/-- The calls of a run with their replies. -/
def Relay.history (calls : List (Call P)) : List (Call P × Reply) :=
  Machine.trace (Relay.step P) Relay.empty calls

variable {P}

theorem Relay.after_concat (calls : List (Call P)) (call : Call P) :
    Relay.after P (calls ++ [call]) = ((Relay.after P calls).step P call).2 :=
  Machine.run_concat _ calls call

theorem Relay.history_concat (calls : List (Call P)) (call : Call P) :
    Relay.history P (calls ++ [call]) =
      Relay.history P calls ++ [(call, ((Relay.after P calls).step P call).1)] :=
  Machine.trace_concat _ calls call

end SecureMessenger
