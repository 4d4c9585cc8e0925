import SecureMessenger.Relay.Commit
import SecureMessenger.Capability.Authority

/-!
# A fetch refines a first-in first-out mailbox

The abstract mailbox is read off the history of calls and replies alone: the send
requests that were stored, in the order of their acceptance, without those that a
later acknowledgement deleted. It knows nothing of row numbers, sweeps, nonces or
other queues.

The invariant compares it with the stored rows only as far as they are unexpired
at the latest clock value, so that a sweep which was rolled back with a failing
call makes no difference. A deleted mailbox is outside the comparison; no fetch of
it succeeds any more.
-/

namespace SecureMessenger

open Machine Fallible

variable {P : Primitives}

namespace Relay

/-- The request of an entry that stored a message for this queue. -/
def storedRequest? (q : QueueId) : Call P × Reply → Option SendRequest
  | (.enqueue request _, .ok (.enqueued .stored)) =>
      if request.queueId = q then some request else none
  | _ => none

/-- The entry deleted the message with this id from this queue. -/
def acknowledges (q : QueueId) (messageId : MessageId) : Call P × Reply → Bool
  | (.acknowledge request _, .ok (.acknowledged .deleted)) =>
      request.queueId = q ∧ request.messageId = messageId
  | _ => false

theorem acknowledges_iff {q : QueueId} {messageId : MessageId} {call : Call P} {reply : Reply} :
    acknowledges q messageId (call, reply) = true ↔
      ∃ request now, call = .acknowledge request now ∧ reply = .ok (.acknowledged .deleted) ∧
        request.queueId = q ∧ request.messageId = messageId := by
  constructor
  · intro h
    unfold acknowledges at h
    split at h
    · rename_i request now same
      cases same
      exact ⟨request, now, rfl, rfl, of_decide_eq_true h⟩
    · cases h
  · rintro ⟨request, now, rfl, rfl, own⟩
    exact decide_eq_true own

/-- The requests stored for this queue, in the order of acceptance, that no later
entry acknowledged. -/
def outstanding (q : QueueId) : List (Call P × Reply) → List SendRequest
  | [] => []
  | entry :: later =>
      match storedRequest? q entry with
      | some request =>
          if later.any (acknowledges q request.messageId) then outstanding q later
          else request :: outstanding q later
      | none => outstanding q later

/-- One more entry removes what it acknowledges and appends what it stored. -/
theorem outstanding_concat (q : QueueId) (entries : List (Call P × Reply))
    (entry : Call P × Reply) :
    outstanding q (entries ++ [entry]) =
      (outstanding q entries).filter (fun request => !acknowledges q request.messageId entry) ++
        (storedRequest? q entry).toList := by
  induction entries with
  | nil =>
      cases stored : storedRequest? q entry with
      | none => simp [outstanding, stored]
      | some request => simp [outstanding, stored]
  | cons first later ih =>
      simp only [List.cons_append, outstanding]
      cases stored : storedRequest? q first with
      | none => exact ih
      | some request =>
          simp only [List.any_append, List.any_cons, List.any_nil, Bool.or_false, ih]
          by_cases earlier : later.any (acknowledges q request.messageId) = true
          · simp [earlier]
          · by_cases last : acknowledges q request.messageId entry = true
            · simp [earlier, last]
            · simp [earlier, last]

theorem queueId_of_storedRequest {q : QueueId} {entry : Call P × Reply} {request : SendRequest}
    (stored : storedRequest? q entry = some request) : request.queueId = q := by
  unfold storedRequest? at stored
  split at stored
  · split at stored
    · rename_i own
      cases stored
      exact own
    · cases stored
  · cases stored

/-- Only requests for this queue are outstanding. -/
theorem queueId_of_outstanding {q : QueueId} {entries : List (Call P × Reply)}
    {request : SendRequest} (member : request ∈ outstanding q entries) : request.queueId = q := by
  induction entries with
  | nil => cases member
  | cons entry later ih =>
      simp only [outstanding] at member
      split at member
      · rename_i stored
        split at member
        · exact ih member
        · obtain rfl | older := List.mem_cons.mp member
          · exact queueId_of_storedRequest stored
          · exact ih older
      · exact ih member

theorem outstanding_other {q : QueueId} {call : Call P} (other : call.queueId? ≠ some q)
    (entries : List (Call P × Reply)) (reply : Reply) :
    outstanding q (entries ++ [(call, reply)]) = outstanding q entries := by
  have stores : storedRequest? q (call, reply) = none := by
    cases stored : storedRequest? q (call, reply) with
    | none => rfl
    | some request =>
        unfold storedRequest? at stored
        split at stored
        · rename_i same
          cases same
          rw [if_neg fun own => other (congrArg some own)] at stored
          cases stored
        · cases stored
  have deletes : ∀ messageId, acknowledges q messageId (call, reply) = false := by
    intro messageId
    refine Bool.eq_false_of_not_eq_true fun acknowledged => ?_
    obtain ⟨request, now, rfl, _, own, _⟩ := acknowledges_iff.mp acknowledged
    exact other (congrArg some own)
  rw [outstanding_concat, stores]
  simp [deletes]

end Relay

namespace Mailbox

/-- The rows of the requests that are unexpired at a time. -/
def pending (time : Nat) (requests : List SendRequest) : List MessageRow :=
  (requests.filter (fun request => time < request.expiresAt.toNat)).map
    (fun request => messageOf request request.expiresAt.toNat)

theorem pending_append (time : Nat) (requests requests' : List SendRequest) :
    pending time (requests ++ requests') = pending time requests ++ pending time requests' := by
  simp [pending]

/-- Later, fewer of the same requests are pending. -/
theorem filter_pending {early late : Nat} (le : early ≤ late) (requests : List SendRequest) :
    (pending early requests).filter (fun row => (late : Int) < row.expiresAt) =
      pending late requests := by
  simp only [pending, List.filter_map, List.filter_filter]
  congr 1
  apply List.filter_congr
  intro request _
  simp only [Function.comp_apply, messageOf, Int.ofNat_lt]
  by_cases unexpired : late < request.expiresAt.toNat
  · simp [unexpired, Nat.lt_of_le_of_lt le unexpired]
  · simp [unexpired]

theorem filter_messageId_pending (time : Nat) (requests : List SendRequest)
    (messageId : MessageId) :
    (pending time requests).filter (fun row => row.messageId ≠ messageId.toList) =
      pending time (requests.filter (fun request => request.messageId ≠ messageId)) := by
  simp only [pending, List.filter_map, List.filter_filter]
  congr 1
  apply List.filter_congr
  intro request _
  simp [messageOf, Bool.and_comm]

/-- The stored messages that are unexpired at `time` are the pending requests. -/
def Queues (requests : List SendRequest) (time : Nat) (m : Mailbox) : Prop :=
  m.Gone ∨ (m.sweep time).messages = pending time requests

theorem messages_sweep_later {m : Mailbox} {early late : Nat} {requests : List SendRequest}
    (le : early ≤ late) (same : (m.sweep early).messages = pending early requests) :
    (m.sweep late).messages = pending late requests := by
  rw [← sweep_sweep m (Int.ofNat_le.mpr le), sweep, same]
  exact filter_pending le requests

theorem messages_sweep_of_eq {m m' : Mailbox} {now : Nat}
    (same : m'.messages = (m.sweep now).messages) :
    (m'.sweep now).messages = (m.sweep now).messages := by
  rw [sweep, same]
  exact m.filter_messages_sweep now

theorem Queues.stands {m m' : Mailbox} {time : Nat} {requests : List SendRequest}
    (queues : Queues requests time m) {collision : Prop} {now : UInt64} (later : time ≤ now.toNat)
    (bystander : Bystander collision now m m') : Queues requests now.toNat m' := by
  obtain gone | same := queues
  · exact .inl (gone.stands bystander)
  · refine .inr ?_
    have still := messages_sweep_later later same
    cases bystander with
    | untouched => exact still
    | swept => exact (messages_sweep_of_eq rfl).trans still
    | retired => exact (messages_sweep_of_eq rfl).trans still

/-- A step of the mailbox is a step of the abstract queue. -/
theorem Queues.keeps {m m' : Mailbox} {time : Nat} {entries : List (Call P × Reply)} {q : QueueId}
    (queues : Queues (Relay.outstanding q entries) time m) {call : Call P} {reply : Reply}
    (own : call.queueId? = some q) (later : time ≤ call.clock)
    (effect : Effect P m call reply m') :
    Queues (Relay.outstanding q (entries ++ [(call, reply)])) call.clock m' := by
  rw [Relay.outstanding_concat]
  obtain gone | same := queues
  · rw [(gone.refuses effect).2]
    exact .inl gone
  have still := messages_sweep_later later same
  -- Entries that neither store nor acknowledge leave the abstract queue alone.
  have quiet : ∀ {m'' : Mailbox}, m''.messages = (m.sweep call.clock).messages →
      (m''.sweep call.clock).messages = pending call.clock
        ((Relay.outstanding q entries).filter (fun _ => !false) ++ (none : Option _).toList) := by
    intro m'' messages
    rw [messages_sweep_of_eq messages, still]
    simp
  cases effect with
  | refused => exact .inr (by simpa [Relay.acknowledges, Relay.storedRequest?] using still)
  | mailboxDeleted => exact .inl (gone_retire _)
  | registered | registeredAgain => exact .inr (quiet (messages_noteRegistration _ _ _))
  | duplicate | fetched | alreadyDeleted => exact .inr (quiet rfl)
  | stored request now _ timely =>
      have future := timely.future
      cases own
      refine .inr ?_
      have kept : (m.sweep now.toNat).messages.filter
          (fun row => (now.toNat : Int) < row.expiresAt) = (m.sweep now.toNat).messages :=
        m.filter_messages_sweep now.toNat
      simp only [Relay.acknowledges, Relay.storedRequest?, Bool.not_false, List.filter_true,
        if_true, Option.toList_some, pending_append, Call.clock, Call.now] at still ⊢
      rw [← still]
      simp only [sweep, List.filter_append] at kept ⊢
      rw [kept]
      simp [pending, messageOf, future]
  | deleted request now =>
      cases own
      refine .inr ?_
      have acknowledged : (fun sent : SendRequest => !Relay.acknowledges request.queueId
            sent.messageId (Call.acknowledge (P := P) request now,
              .ok (.acknowledged .deleted))) =
          fun sent => decide (sent.messageId ≠ request.messageId) := by
        funext sent
        simp [Relay.acknowledges, eq_comm]
      simp only [acknowledged, Relay.storedRequest?, Option.toList_none, List.append_nil,
        Call.clock, Call.now] at still ⊢
      rw [← filter_messageId_pending, ← still]
      simp [sweep, bury, List.filter_filter, Bool.and_comm, Bool.and_left_comm]

/-- A pending request is decoded to its own envelope. -/
theorem decodeEnvelope_messageOf (request : SendRequest) :
    decodeEnvelope request.queueId (messageOf request request.expiresAt.toNat) =
      .ok request.envelope := by
  have messageId : FixedBytes.fromSlice 16
      (messageOf request request.expiresAt.toNat).messageId = some request.messageId :=
    FixedBytes.fromSlice_toList _
  have expiresAt : toU64 (messageOf request request.expiresAt.toNat).expiresAt =
      some request.expiresAt := toU64_toNat _
  have signature : FixedBytes.fromSlice 64
      (messageOf request request.expiresAt.toNat).senderSignature = some request.signature :=
    FixedBytes.fromSlice_toList _
  rw [decodeEnvelope, messageId, expiresAt, signature]
  rfl

theorem mapM_decode_pending {q : QueueId} (time : Nat) {requests : List SendRequest}
    (own : ∀ request ∈ requests, request.queueId = q) :
    (pending time requests).mapM (decodeEnvelope q) =
      .ok ((requests.filter (fun request => time < request.expiresAt.toNat)).map
        SendRequest.envelope) := by
  induction requests with
  | nil => rfl
  | cons request requests ih =>
      have rest := ih fun later member => own later (List.mem_cons_of_mem _ member)
      have decoded := decodeEnvelope_messageOf request
      rw [own request (List.mem_cons_self ..)] at decoded
      by_cases unexpired : time < request.expiresAt.toNat
      · simp only [pending, List.filter_cons, unexpired, decide_true, if_true, List.map_cons,
          List.mapM_cons, decoded, ok_bind] at rest ⊢
        rw [rest]
        rfl
      · simpa only [pending, List.filter_cons, unexpired, decide_false, Bool.false_eq_true,
          if_false] using rest

/-- A timely fetch with a fresh nonce, signed by the receive key, succeeds with
whatever the stored messages decode to. -/
theorem fetch_succeeds {m : Mailbox} {request : FetchRequest} {now : UInt64}
    {envelopes : List StoredEnvelope}
    (timely : validateRequestTime request.validUntil now = .ok ())
    (fits : request.validUntil.toNat < 2 ^ 63)
    (authorised : m.Authorised P .receiveKey request.signingBytes request.signature now)
    (fresh : ∀ row ∈ (m.sweep now.toNat).requestNonces, row.role = .receive →
      row.nonce ≠ request.nonce.toList)
    (decoded : (m.sweep now.toNat).messages.mapM (decodeEnvelope request.queueId) =
      .ok envelopes) :
    ∃ m', m.fetch P request now = .ok (envelopes, m') := by
  obtain ⟨key, hasKey, verified⟩ := authorised.signed
  have time : toI64 now = .ok now.toNat := toI64_eq_ok.mpr ⟨authorised.representable, rfl⟩
  have purged : m.purge now = .ok (m.sweep now.toNat) :=
    purge_eq_ok.mpr ⟨authorised.representable, rfl⟩
  obtain ⟨m', recorded⟩ : ∃ m', (m.sweep now.toNat).recordNonce request.queueId .receive
      request.nonce request.validUntil = .ok m' ∧ m'.messages = (m.sweep now.toNat).messages :=
    ⟨_, recordNonce_eq_ok.mpr ⟨fits, fresh, rfl⟩, rfl⟩
  refine ⟨m', ?_⟩
  simp only [fetch, timely, purged, ok_bind, key_sweep, hasKey, verified, recorded.1, time,
    recorded.2, filter_messages_sweep, decoded]
  rfl

/-- A second fetch at the same time finds the same messages. -/
theorem fetch_again {m m' : Mailbox} {request again : FetchRequest} {now : UInt64}
    {envelopes : List StoredEnvelope}
    (effect : Effect P m (.fetch request now) (.ok (.fetched envelopes)) m')
    (sameQueue : again.queueId = request.queueId)
    (timely : validateRequestTime again.validUntil now = .ok ())
    (fits : again.validUntil.toNat < 2 ^ 63)
    (signed : ∃ key, m.key P .receiveKey = .ok key ∧
      key.verify again.signingBytes again.signature = true)
    (fresh : ∀ row ∈ m'.requestNonces, row.role = .receive → row.nonce ≠ again.nonce.toList) :
    (m'.step P (.fetch again now)).1 = .ok (.fetched envelopes) := by
  obtain ⟨sameMessages, decoded⟩ : m'.messages = (m.sweep now.toNat).messages ∧
      (m.sweep now.toNat).messages.mapM (decodeEnvelope request.queueId) = .ok envelopes := by
    cases effect with
    | fetched _ _ _ _ _ _ decoded => exact ⟨rfl, decoded⟩
  rw [← messages_sweep_of_eq sameMessages, ← sameQueue] at decoded
  have authorised : m'.Authorised P .receiveKey again.signingBytes again.signature now := by
    cases effect with
    | fetched _ _ _ authorised => exact ⟨authorised.representable, signed⟩
  obtain ⟨m'', second⟩ := fetch_succeeds timely fits authorised
    (fun row member => fresh row (mem_requestNonces_sweep.mp member).1) decoded
  simp only [step, second, transact]

end Mailbox

namespace Relay

/-- After every run, the unexpired messages of a queue are the outstanding ones. -/
theorem queues_after (q : QueueId) {calls : List (Call P)}
    (timed : Nondecreasing Call.clock calls) :
    Mailbox.Queues (outstanding q (history P calls)) (latest Call.clock 0 calls)
      ((Relay.after P calls).mailbox P q) := by
  induction calls using List.reverseRecOn with
  | nil => exact .inr rfl
  | append_singleton calls call ih =>
      have queues := ih timed.left
      have later : latest Call.clock 0 calls ≤ call.clock :=
        timed.latest_le (fun _ _ => Nat.zero_le _) call (List.mem_singleton.mpr rfl)
      rw [history_concat, after_concat, latest_concat]
      obtain ⟨own, effect⟩ | ⟨other, bystander⟩ := step_view (current_after calls) q call
      · exact queues.keeps own later effect
      · rw [outstanding_other other]
        exact queues.stands later bystander

/-- A fetch keeps exactly the unexpired messages of every queue. -/
theorem fetchIn_messages {t : Tables} {request : FetchRequest} {now : UInt64}
    {c : Committed (List StoredEnvelope)} (h : fetchIn P t request now = .ok c) :
    c.2.2.messages.contents =
      t.messages.contents.filter (fun row => (now.toNat : Int) < row.expiresAt) := by
  simp only [fetchIn, bind_eq_ok, Tables.purgeExpiredIn_eq_ok, Except.ok.injEq] at h
  obtain ⟨_, _, _, ⟨_, rfl⟩, _, _, _, _, _, recorded, _, _, _, _, rfl⟩ := h
  rw [(Tables.eq_of_recordNonce recorded).2]
  exact Table.contents_keep _ _

theorem messages_after_fetch {r : Relay} {request : FetchRequest} {now : UInt64}
    {envelopes : List StoredEnvelope}
    (fetched : (r.step P (.fetch request now)).1 = .ok (.fetched envelopes)) :
    (r.step P (.fetch request now)).2.image.tables.messages.contents =
      r.image.tables.messages.contents.filter (fun row => (now.toNat : Int) < row.expiresAt) := by
  obtain ⟨c, succeeded, _, image⟩ := transact_ok fetched
  change (r.transact (fetchIn P r.image.tables request now)).2.image.tables.messages.contents = _
  rw [image]
  exact fetchIn_messages succeeded

/-- What a successful fetch returns is determined by the abstract queue. -/
theorem fetched_eq {calls : List (Call P)} {request : FetchRequest} {now : UInt64}
    (timed : Nondecreasing Call.clock (calls ++ [.fetch request now]))
    {envelopes : List StoredEnvelope}
    (fetched : ((Relay.after P calls).step P (.fetch request now)).1 = .ok (.fetched envelopes)) :
    envelopes = ((outstanding request.queueId (history P calls)).filter
      (fun sent => now < sent.expiresAt)).map SendRequest.envelope := by
  have queues := queues_after request.queueId timed.left
  have later : latest Call.clock 0 calls ≤ now.toNat :=
    timed.latest_le (fun _ _ => Nat.zero_le _) (.fetch request now) (List.mem_singleton.mpr rfl)
  have effect := (Relay.after P calls).own_effect (P := P) (.fetch request now) rfl
  rw [fetched] at effect
  generalize ((Relay.after P calls).step P (.fetch request now)).2.mailbox P
    request.queueId = m' at effect
  cases effect with
  | fetched _ _ _ authorised _ _ decoded =>
      obtain gone | same := queues
      · exact absurd gone.noRow authorised.live
      · rw [Mailbox.messages_sweep_later later same,
          Mailbox.mapM_decode_pending _ fun sent member => queueId_of_outstanding member] at decoded
        simpa only [UInt64.lt_iff_toNat_lt, Except.ok.injEq, eq_comm] using decoded

/-- Fetching refines the abstract queue. A successful fetch returns one envelope
for each outstanding request that is unexpired, in the order of acceptance and with
the fields of the request, and nothing else. It removes no unexpired message: the
messages that remain are the unexpired ones, and a second fetch at the same time,
signed by the receive key and with a fresh nonce, returns the same list. -/
theorem fetch_refines_fifo (calls : List (Call P)) (request : FetchRequest) (now : UInt64)
    (timed : Nondecreasing Call.clock (calls ++ [.fetch request now]))
    (envelopes : List StoredEnvelope)
    (fetched : ((Relay.after P calls).step P (.fetch request now)).1 = .ok (.fetched envelopes)) :
    envelopes = ((outstanding request.queueId (history P calls)).filter
      (fun sent => now < sent.expiresAt)).map SendRequest.envelope ∧
    (Relay.after P (calls ++ [.fetch request now])).image.tables.messages.contents =
      (Relay.after P calls).image.tables.messages.contents.filter
        (fun row => (now.toNat : Int) < row.expiresAt) ∧
    ∀ again : FetchRequest, again.queueId = request.queueId →
      validateRequestTime again.validUntil now = .ok () → again.validUntil.toNat < 2 ^ 63 →
      (∃ key, mailboxKey P (Relay.after P calls).image.tables request.queueId .receiveKey =
        .ok key ∧ key.verify again.signingBytes again.signature = true) →
      (∀ row ∈ (Relay.after P (calls ++ [.fetch request now])).image.tables.requestNonces.contents,
        row.key ≠ (again.queueId.toList, .receive, again.nonce.toList)) →
      ((Relay.after P (calls ++ [.fetch request now])).step P (.fetch again now)).1 =
        .ok (.fetched envelopes) := by
  refine ⟨fetched_eq timed fetched, ?_, ?_⟩
  · rw [after_concat]
    exact messages_after_fetch fetched
  · intro again sameQueue timely fits ⟨key, hasKey, verified⟩ fresh
    rw [after_concat] at fresh ⊢
    have own : (Call.fetch (P := P) again now).queueId? = some request.queueId :=
      congrArg some sameQueue
    rw [(step_own _ own).1]
    have effect := (Relay.after P calls).own_effect (P := P) (.fetch request now) rfl
    rw [fetched] at effect
    have unused : ∀ row ∈ (((Relay.after P calls).step P (.fetch request now)).2.mailbox P
        request.queueId).requestNonces, row.role = .receive →
        row.nonce ≠ again.nonce.toList := by
      intro row member role same
      obtain ⟨inTable, inQueue⟩ := List.mem_filter.mp member
      have inQueue : row.queueId = request.queueId.toList := by simpa using inQueue
      refine fresh row inTable ?_
      rw [RequestNonceRow.key, inQueue, role, same, sameQueue]
    rw [Tables.mailboxKey_mailbox] at hasKey
    exact Mailbox.fetch_again effect sameQueue timely fits ⟨key, hasKey, verified⟩ unused

namespace TwoQueues

def here : MailboxOwner .symbolic := .symbolic 1
def elsewhere : MailboxOwner .symbolic := .symbolic 11
def first : SendRequest := here.senderCapability.authorize (.fill 16 1) [1] 1000
def second : SendRequest := here.senderCapability.authorize (.fill 16 2) [2] 120
def third : SendRequest := here.senderCapability.authorize (.fill 16 3) [3] 900
def foreign : SendRequest := elsewhere.senderCapability.authorize (.fill 16 1) [1] 1000
def acked : AckRequest :=
  here.receiverCapability.authorizeAck
    ⟨⟨1, .fill 16 0, .fill 16 1, 0, ""⟩, ⟨here.queueId, .fill 16 1, [1], 1000⟩⟩ 160

/-- Two mailboxes in turn; one message is acknowledged and one expires. -/
def calls : List (Call .symbolic) :=
  [.register (here.registration (.fill 16 5) 160) 100,
    .register (elsewhere.registration (.fill 16 5) 160) 100,
    .enqueue first 100, .enqueue foreign 101, .enqueue second 101, .enqueue third 102,
    .acknowledge acked 110]

def read : FetchRequest := here.receiverCapability.authorizeFetch (.fill 16 7) 200

end TwoQueues

open TwoQueues in
theorem fetch_refines_fifo_two_queues :
    (outstanding here.queueId (history .symbolic calls)) = [second, third] ∧
      [third.envelope] = ((outstanding here.queueId (history .symbolic calls)).filter
        (fun sent => (130 : UInt64) < sent.expiresAt)).map SendRequest.envelope :=
  ⟨by decide +kernel,
    (fetch_refines_fifo calls read 130 (by unfold Nondecreasing; decide) [third.envelope]
      (by decide +kernel)).1⟩

end Relay

end SecureMessenger
