import SecureMessenger.Relay.Behaviour
import SecureMessenger.Capability.Authority

/-!
# Replay safety of the relay

A request that took effect is remembered by a row: an accepted message by its own
row and after its deletion by a tombstone, a fetch by its nonce, an
acknowledgement by the tombstone it left. Such a memory may end in two ways only.
Either the deadline inside the request has passed, so that the request fails its
own time check, or the mailbox is gone and refuses everything.

The hand-over between the memories is exact. A message is accepted at most a week
before its expiry and a tombstone lasts a week, so a tombstone outlives the
request whose message it replaces; the sweep drops a row at its deadline and the
time checks refuse a request at its deadline.
-/

namespace SecureMessenger

open Machine

variable {P : Primitives}

namespace Mailbox

variable {m m' : Mailbox} {messageId : MessageId} {deadline time : Nat}

/-- A property of one mailbox that lasts through calls to it and through calls
to others. -/
structure Lasting (P : Primitives) (mark : Nat → Mailbox → Prop) : Prop where
  keeps : ∀ {time m call reply m'}, mark time m → time ≤ call.clock →
    Effect P m call reply m' → mark call.clock m'
  stands : ∀ {time m collision now m'}, mark time m → time ≤ now.toNat →
    Bystander collision now m m' → mark now.toNat m'

/-- A stored message that expires no earlier than the deadline. -/
def HasMessage (messageId : MessageId) (deadline : Nat) (m : Mailbox) : Prop :=
  ∃ row ∈ m.messages, row.messageId = messageId.toList ∧ deadline ≤ row.expiresAt

/-- A tombstone that is kept at least until the deadline. -/
def HasTombstone (messageId : MessageId) (deadline : Nat) (m : Mailbox) : Prop :=
  ∃ row ∈ m.tombstones, row.messageId = messageId.toList ∧ deadline ≤ row.deleteAfter

/-- A request nonce that is kept at least until the deadline. -/
def HasNonce (role : Role) (nonce : Nonce) (deadline : Nat) (m : Mailbox) : Prop :=
  ∃ row ∈ m.requestNonces, row.role = role ∧ row.nonce = nonce.toList ∧ deadline ≤ row.deleteAfter

theorem HasMessage.sweep (h : HasMessage messageId deadline m) (now : Nat) :
    deadline ≤ now ∨ HasMessage messageId deadline (m.sweep now) := by
  obtain ⟨row, member, same, late⟩ := h
  by_cases passed : deadline ≤ now
  · exact .inl passed
  · exact .inr ⟨row, mem_messages_sweep.mpr ⟨member, by omega⟩, same, late⟩

theorem HasTombstone.sweep (h : HasTombstone messageId deadline m) (now : Nat) :
    deadline ≤ now ∨ HasTombstone messageId deadline (m.sweep now) := by
  obtain ⟨row, member, same, late⟩ := h
  by_cases passed : deadline ≤ now
  · exact .inl passed
  · exact .inr ⟨row, mem_tombstones_sweep.mpr ⟨member, by omega⟩, same, late⟩

theorem HasNonce.sweep {role : Role} {nonce : Nonce} (h : HasNonce role nonce deadline m)
    (now : Nat) : deadline ≤ now ∨ HasNonce role nonce deadline (m.sweep now) := by
  obtain ⟨row, member, sameRole, sameNonce, late⟩ := h
  by_cases passed : deadline ≤ now
  · exact .inl passed
  · exact .inr ⟨row, mem_requestNonces_sweep.mpr ⟨member, by omega⟩, sameRole, sameNonce, late⟩

/-- Burying leaves a tombstone for a week, whatever was remembered before. -/
theorem hasTombstone_bury (m : Mailbox) (queueId : QueueId) (messageId : MessageId) {now : Nat}
    (week : deadline ≤ now + 604800) :
    HasTombstone messageId deadline (m.bury queueId messageId (now + 604800)) := by
  obtain ⟨row, member, same, equal⟩ := m.exists_tombstone_bury queueId messageId (now + 604800)
  exact ⟨row, member, same, by omega⟩

/-- Burying one message keeps the tombstones of all others, and renews its own. -/
theorem HasTombstone.bury (h : HasTombstone messageId deadline m) (queueId : QueueId)
    (buried : MessageId) {now : Nat} (week : deadline ≤ now + 604800) :
    HasTombstone messageId deadline (m.bury queueId buried (now + 604800)) := by
  by_cases same : messageId = buried
  · subst same
    exact m.hasTombstone_bury queueId messageId week
  · obtain ⟨row, member, own, late⟩ := h
    have other : row.messageId ≠ buried.toList := by
      rw [own]
      exact fun equal => same (FixedBytes.toList_inj.mp equal)
    exact ⟨row, mem_tombstones_bury_of_ne member other, own, late⟩

/-- A tombstone lasts until its deadline, or goes with its mailbox. -/
theorem HasTombstone.keeps (h : HasTombstone messageId deadline m) {call : Call P} {reply : Reply}
    (week : deadline ≤ call.clock + 604800) (effect : Effect P m call reply m') :
    deadline ≤ call.clock ∨ m'.Gone ∨ HasTombstone messageId deadline m' := by
  obtain passed | kept := h.sweep call.clock
  · exact .inl passed
  refine .inr ?_
  cases effect with
  | refused => exact .inr h
  | mailboxDeleted => exact .inl (gone_retire _)
  | deleted request now => exact .inr (kept.bury request.queueId request.messageId week)
  | registered | registeredAgain =>
      refine .inr ?_
      simpa only [HasTombstone, tombstones_noteRegistration, Call.clock, Call.now] using kept
  | stored | duplicate | fetched | alreadyDeleted => exact .inr kept

/-- A message lasts until its expiry, or goes with its mailbox, or is replaced by
a tombstone that lasts as long. -/
theorem HasMessage.keeps (h : HasMessage messageId deadline m) {call : Call P} {reply : Reply}
    (week : deadline ≤ call.clock + 604800) (effect : Effect P m call reply m') :
    deadline ≤ call.clock ∨ m'.Gone ∨ HasMessage messageId deadline m' ∨
      HasTombstone messageId deadline m' := by
  obtain passed | kept := h.sweep call.clock
  · exact .inl passed
  refine .inr ?_
  cases effect with
  | refused => exact .inr (.inl h)
  | mailboxDeleted => exact .inl (gone_retire _)
  | deleted request now =>
      by_cases same : messageId = request.messageId
      · subst same
        exact .inr (.inr (hasTombstone_bury _ _ _ week))
      · obtain ⟨row, member, own, late⟩ := kept
        have other : row.messageId ≠ request.messageId.toList := by
          rw [own]
          exact fun equal => same (FixedBytes.toList_inj.mp equal)
        exact .inr (.inl ⟨row, mem_messages_bury.mpr ⟨member, other⟩, own, late⟩)
  | registered | registeredAgain =>
      refine .inr (.inl ?_)
      simpa only [HasMessage, messages_noteRegistration, Call.clock, Call.now] using kept
  | stored =>
      obtain ⟨row, member, own, late⟩ := kept
      exact .inr (.inl ⟨row, List.mem_append_left _ member, own, late⟩)
  | duplicate | fetched | alreadyDeleted => exact .inr (.inl kept)

/-- A request nonce lasts until its deadline, or goes with its mailbox. -/
theorem HasNonce.keeps {role : Role} {nonce : Nonce} (h : HasNonce role nonce deadline m)
    {call : Call P} {reply : Reply} (effect : Effect P m call reply m') :
    deadline ≤ call.clock ∨ m'.Gone ∨ HasNonce role nonce deadline m' := by
  obtain passed | kept := h.sweep call.clock
  · exact .inl passed
  refine .inr ?_
  cases effect with
  | refused => exact .inr h
  | mailboxDeleted => exact .inl (gone_retire _)
  | registered | registeredAgain =>
      refine .inr ?_
      simpa only [HasNonce, requestNonces_noteRegistration, Call.clock, Call.now] using kept
  | fetched =>
      obtain ⟨row, member, own⟩ := kept
      exact .inr ⟨row, List.mem_append_left _ member, own⟩
  | stored | duplicate | alreadyDeleted | deleted => exact .inr kept

/-- No message with this id is stored. -/
def NoMessage (messageId : MessageId) (m : Mailbox) : Prop :=
  ∀ row ∈ m.messages, row.messageId ≠ messageId.toList

theorem NoMessage.sweep (h : NoMessage messageId m) (now : Int) :
    NoMessage messageId (m.sweep now) :=
  fun row member => h row (mem_messages_sweep.mp member).1

/-- While its tombstone lasts, a message id is not stored again. -/
theorem NoMessage.keeps (h : NoMessage messageId m) (tombstone : HasTombstone messageId deadline m)
    {call : Call P} {reply : Reply} (effect : Effect P m call reply m') :
    deadline ≤ call.clock ∨ NoMessage messageId m' := by
  cases effect with
  | refused => exact .inr h
  | mailboxDeleted =>
      refine .inr ?_
      intro row member
      cases member
  | deleted => exact .inr fun row member => h.sweep _ row (mem_messages_bury.mp member).1
  | registered | registeredAgain =>
      refine .inr ?_
      simpa only [NoMessage, messages_noteRegistration] using h.sweep _
  | stored request now _ _ _ notGone =>
      obtain ⟨tomb, buried, own, late⟩ := tombstone
      by_cases same : messageId = request.messageId
      · -- The tombstone would have stopped this message unless it has lapsed.
        have lapsed := notGone tomb buried (by rw [own, same])
        exact .inl (by simp only [Call.clock, Call.now]; omega)
      · refine .inr ?_
        intro row member
        obtain old | new := List.mem_append.mp member
        · exact h.sweep _ row old
        · rw [List.mem_singleton.mp new]
          exact fun equal => same (FixedBytes.toList_inj.mp equal).symm
  | duplicate | fetched | alreadyDeleted => exact .inr (h.sweep _)

/-- A request with this deadline can no longer take effect: the deadline has
passed, the mailbox is gone, or the request is remembered. -/
def Spent (deadline : Nat) (remembered : Nat → Mailbox → Prop) (time : Nat) (m : Mailbox) : Prop :=
  deadline ≤ time ∨ m.Gone ∨ remembered time m

/-- Only the remembering rows need an argument of their own. -/
theorem lasting_spent {remembered : Nat → Mailbox → Prop}
    (keeps : ∀ {time m call reply m'}, remembered time m → time ≤ call.clock →
      Effect P m call reply m' → Spent deadline remembered call.clock m')
    (sweeps : ∀ {time m now}, remembered time m → time ≤ now →
      deadline ≤ now ∨ remembered now (m.sweep now))
    (waits : ∀ {time m now}, remembered time m → time ≤ now → remembered now m)
    (ignores : ∀ {time m}, remembered time m → remembered time { m with retired := true }) :
    Lasting P (Spent deadline remembered) where
  keeps := by
    rintro time m call reply m' (passed | gone | kept) later effect
    · exact .inl (passed.trans later)
    · rw [(gone.refuses effect).2]
      exact .inr (.inl gone)
    · exact keeps kept later effect
  stands := by
    rintro time m collision now m' (passed | gone | kept) later bystander
    · exact .inl (passed.trans later)
    · exact .inr (.inl (gone.stands bystander))
    · cases bystander with
      | untouched => exact .inr (.inr (waits kept later))
      | swept => exact (sweeps kept later).imp_right .inr
      | retired => exact (sweeps kept later).imp_right fun swept => .inr (ignores swept)

/-- An accepted send request is remembered by its message or by a tombstone, and
its expiry is at most a week away. -/
def SendRemembered (request : SendRequest) (time : Nat) (m : Mailbox) : Prop :=
  request.expiresAt.toNat ≤ time + 604800 ∧
    (HasMessage request.messageId request.expiresAt.toNat m ∨
      HasTombstone request.messageId request.expiresAt.toNat m)

def FetchRemembered (request : FetchRequest) (_ : Nat) (m : Mailbox) : Prop :=
  HasNonce .receive request.nonce request.validUntil.toNat m

/-- An acknowledgement that deleted its message is remembered by the tombstone
it left, under which the message id stays unused. -/
def AckRemembered (request : AckRequest) (time : Nat) (m : Mailbox) : Prop :=
  request.validUntil.toNat ≤ time + 604800 ∧
    HasTombstone request.messageId request.validUntil.toNat m ∧ NoMessage request.messageId m

theorem lasting_send (request : SendRequest) :
    Lasting P (Spent request.expiresAt.toNat (SendRemembered request)) := by
  apply lasting_spent
  · rintro time m call reply m' ⟨week, kept⟩ later effect
    have week : request.expiresAt.toNat ≤ call.clock + 604800 := by omega
    obtain message | tombstone := kept
    · obtain passed | gone | still | replaced := message.keeps week effect
      · exact .inl passed
      · exact .inr (.inl gone)
      · exact .inr (.inr ⟨week, .inl still⟩)
      · exact .inr (.inr ⟨week, .inr replaced⟩)
    · obtain passed | gone | still := tombstone.keeps week effect
      · exact .inl passed
      · exact .inr (.inl gone)
      · exact .inr (.inr ⟨week, .inr still⟩)
  · rintro time m now ⟨week, kept⟩ later
    obtain message | tombstone := kept
    · exact (message.sweep now).imp_right fun still => ⟨by omega, .inl still⟩
    · exact (tombstone.sweep now).imp_right fun still => ⟨by omega, .inr still⟩
  · rintro time m now ⟨week, kept⟩ later
    exact ⟨by omega, kept⟩
  · intro time m kept
    exact kept

theorem lasting_fetch (request : FetchRequest) :
    Lasting P (Spent request.validUntil.toNat (FetchRemembered request)) := by
  apply lasting_spent
  · intro time m call reply m' kept later effect
    exact kept.keeps effect
  · intro time m now kept later
    exact HasNonce.sweep kept now
  · intro time m now kept later
    exact kept
  · intro time m kept
    exact kept

theorem lasting_ack (request : AckRequest) :
    Lasting P (Spent request.validUntil.toNat (AckRemembered request)) := by
  apply lasting_spent
  · rintro time m call reply m' ⟨week, tombstone, unused⟩ later effect
    have week : request.validUntil.toNat ≤ call.clock + 604800 := by omega
    obtain passed | unused' := unused.keeps tombstone effect
    · exact .inl passed
    · obtain passed | gone | still := tombstone.keeps week effect
      · exact .inl passed
      · exact .inr (.inl gone)
      · exact .inr (.inr ⟨week, still, unused'⟩)
  · rintro time m now ⟨week, tombstone, unused⟩ later
    exact (tombstone.sweep now).imp_right fun still => ⟨by omega, still, unused.sweep now⟩
  · rintro time m now ⟨week, kept⟩ later
    exact ⟨by omega, kept⟩
  · intro time m kept
    exact kept

/-- After an acknowledgement that left a tombstone until `deadline`: the mailbox
is gone, or every message stored under the acknowledged id was stored after that
deadline and expires later still. -/
def Superseded (messageId : MessageId) (deadline time : Nat) (m : Mailbox) : Prop :=
  m.Gone ∨ (deadline ≤ time + 604800 ∧
    (deadline ≤ time ∨ HasTombstone messageId deadline m) ∧
    ∀ row ∈ m.messages, row.messageId = messageId.toList → deadline < row.expiresAt)

theorem Superseded.sweep {now : Nat} (h : Superseded messageId deadline time m)
    (later : time ≤ now) : Superseded messageId deadline now (m.sweep now) := by
  obtain gone | ⟨week, barred, superseded⟩ := h
  · exact .inl (gone.sweep now)
  · refine .inr ⟨by omega, ?_, ?_⟩
    · obtain passed | tombstone := barred
      · exact .inl (passed.trans later)
      · exact tombstone.sweep now
    · intro row member
      exact superseded row (mem_messages_sweep.mp member).1

theorem lasting_superseded (messageId : MessageId) (deadline : Nat) :
    Lasting P (Superseded messageId deadline) where
  keeps := by
    rintro time m call reply m' (gone | ⟨week, barred, superseded⟩) later effect
    · rw [(gone.refuses effect).2]
      exact .inl gone
    · have barred' : deadline ≤ call.clock ∨ m'.Gone ∨ HasTombstone messageId deadline m' := by
        obtain passed | tombstone := barred
        · exact .inl (passed.trans later)
        · exact tombstone.keeps (by omega) effect
      by_cases gone : m'.Gone
      · exact .inl gone
      refine .inr ⟨by omega, barred'.imp_right fun h => h.resolve_left gone, ?_⟩
      have swept : ∀ row ∈ (m.sweep call.clock).messages,
          row.messageId = messageId.toList → deadline < row.expiresAt :=
        fun row member => superseded row (mem_messages_sweep.mp member).1
      cases effect with
      | refused => exact superseded
      | mailboxDeleted => exact absurd (gone_retire _) gone
      | deleted => exact fun row member => swept row (mem_messages_bury.mp member).1
      | registered | registeredAgain =>
          simpa only [messages_noteRegistration, Call.clock, Call.now] using swept
      | stored request now _ timely _ notGone =>
          intro row member own
          obtain old | new := List.mem_append.mp member
          · exact swept row old own
          · -- A new message under this id was not stopped by the tombstone.
            have future := timely.future
            rw [List.mem_singleton.mp new] at own ⊢
            simp only [Call.clock, Call.now] at later
            change (deadline : Int) < request.expiresAt.toNat
            obtain passed | ⟨tomb, buried, same, late⟩ := barred
            · omega
            · have lapsed := notGone tomb buried (same.trans own.symm)
              omega
      | duplicate | fetched | alreadyDeleted => exact swept
  stands := by
    intro time m collision now m' marked later bystander
    cases bystander with
    | untouched =>
        obtain gone | ⟨week, barred, superseded⟩ := marked
        · exact .inl gone
        · exact .inr ⟨by omega, barred.imp_left fun passed => passed.trans later, superseded⟩
    | swept => exact marked.sweep later
    | retired =>
        obtain gone | still := marked.sweep later
        · exact .inl { gone with retired := rfl }
        · exact .inr still

end Mailbox

namespace Relay

/-- One step of the relay keeps a lasting mark of any mailbox. -/
theorem step_lasting {mark : Nat → Mailbox → Prop} (lasting : Mailbox.Lasting P mark)
    {r : Relay} (current : r.Current) {q : QueueId} {time : Nat}
    (marked : mark time (r.mailbox P q)) {call : Call P} (later : time ≤ call.clock) :
    mark call.clock ((r.step P call).2.mailbox P q) := by
  obtain ⟨_, effect⟩ | ⟨_, bystander⟩ := step_view current q call
  · exact lasting.keeps marked later effect
  · exact lasting.stands marked later bystander

/-- At most once, from a lasting mark of the mailbox the call is addressed to. -/
def once {accepts : Call P × Reply → Bool} {mark : Nat → Mailbox → Prop} (q : QueueId)
    (lasting : Mailbox.Lasting P mark)
    (addressed : ∀ {call reply}, accepts (call, reply) = true → call.queueId? = some q)
    (marks : ∀ {m call reply m'}, Mailbox.Effect P m call reply m' →
      accepts (call, reply) = true → mark call.clock m')
    (blocks : ∀ {time m call reply m'}, mark time m → time ≤ call.clock →
      Mailbox.Effect P m call reply m' → accepts (call, reply) = true → False) :
    Once (Relay.step P) Call.clock accepts where
  invariant := Relay.Current
  mark time r := mark time (r.mailbox P q)
  holds r call current := current_step current call
  marks := by
    intro r call current accepted
    exact marks (r.own_effect call (addressed accepted)) accepted
  keeps := by
    intro time r call current marked later
    exact step_lasting lasting current marked later
  blocks := by
    intro time r call current marked later
    rw [Bool.eq_false_iff]
    intro accepted
    exact blocks marked later (r.own_effect call (addressed accepted)) accepted

/-- A submission of this very request that was answered with a success. -/
def took (request : UInt64 → Call P) (success : Answer → Bool) (entry : Call P × Reply) : Bool :=
  match entry.2 with
  | .ok answer => entry.1 = request entry.1.now && success answer
  | .error _ => false

theorem took_iff {request : UInt64 → Call P} {success : Answer → Bool} {call : Call P}
    {reply : Reply} :
    took request success (call, reply) = true ↔
      call = request call.now ∧ ∃ answer, reply = .ok answer ∧ success answer = true := by
  cases reply with
  | error e => simp [took]
  | ok answer => simp [took]

/-- The relay stored a message for this request. -/
def stores (request : SendRequest) : Call P × Reply → Bool :=
  took (.enqueue request) fun answer => answer = .enqueued .stored

/-- The relay answered this fetch request. -/
def answers (request : FetchRequest) : Call P × Reply → Bool :=
  took (.fetch request) fun answer => answer matches .fetched _

/-- The relay deleted a message for this acknowledgement. -/
def deletes (request : AckRequest) : Call P × Reply → Bool :=
  took (.acknowledge request) fun answer => answer = .acknowledged .deleted

theorem spent_of_stores {request : SendRequest} {m m' : Mailbox} {call : Call P} {reply : Reply}
    (effect : Mailbox.Effect P m call reply m') (accepted : stores request (call, reply) = true) :
    Mailbox.Spent request.expiresAt.toNat (Mailbox.SendRemembered request) call.clock m' := by
  obtain ⟨same, _, rfl, success⟩ := took_iff.mp accepted
  cases of_decide_eq_true success
  rw [same] at effect ⊢
  cases effect with
  | stored _ _ _ timely =>
      have row : Mailbox.messageOf request request.expiresAt.toNat ∈
          (m.sweep call.now.toNat).messages ++
            [Mailbox.messageOf request request.expiresAt.toNat] := by simp
      exact .inr (.inr ⟨timely.near, .inl ⟨_, row, rfl, Int.le_refl _⟩⟩)

theorem not_stores_of_spent {request : SendRequest} {time : Nat} {m m' : Mailbox} {call : Call P}
    {reply : Reply}
    (spent : Mailbox.Spent request.expiresAt.toNat (Mailbox.SendRemembered request) time m)
    (later : time ≤ call.clock) (effect : Mailbox.Effect P m call reply m')
    (accepted : stores request (call, reply) = true) : False := by
  obtain ⟨same, _, rfl, success⟩ := took_iff.mp accepted
  cases of_decide_eq_true success
  rw [Call.clock] at later
  rw [same] at effect
  cases effect with
  | stored _ _ _ timely authorised notGone fresh =>
      have future := timely.future
      obtain passed | gone | ⟨_, ⟨row, member, own, late⟩ | ⟨row, member, own, late⟩⟩ := spent
      · omega
      · exact authorised.live gone.noRow
      · have := fresh row member own
        omega
      · have := notGone row member own
        omega

theorem spent_of_answers {request : FetchRequest} {m m' : Mailbox} {call : Call P} {reply : Reply}
    (effect : Mailbox.Effect P m call reply m') (accepted : answers request (call, reply) = true) :
    Mailbox.Spent request.validUntil.toNat (Mailbox.FetchRemembered request) call.clock m' := by
  obtain ⟨same, _, rfl, success⟩ := took_iff.mp accepted
  rw [same] at effect ⊢
  cases effect with
  | fetched =>
      exact .inr (.inr ⟨_, List.mem_append_right _ (List.mem_singleton.mpr rfl), rfl, rfl,
        Int.le_refl _⟩)

theorem not_answers_of_spent {request : FetchRequest} {time : Nat} {m m' : Mailbox}
    {call : Call P} {reply : Reply}
    (spent : Mailbox.Spent request.validUntil.toNat (Mailbox.FetchRemembered request) time m)
    (later : time ≤ call.clock) (effect : Mailbox.Effect P m call reply m')
    (accepted : answers request (call, reply) = true) : False := by
  obtain ⟨same, _, rfl, success⟩ := took_iff.mp accepted
  rw [Call.clock] at later
  rw [same] at effect
  cases effect with
  | fetched _ _ timely authorised unused =>
      have future := timely.future
      obtain passed | gone | ⟨row, member, role, own, late⟩ := spent
      · omega
      · exact authorised.live gone.noRow
      · have := unused row member role own
        omega

theorem spent_of_deletes {request : AckRequest} {m m' : Mailbox} {call : Call P} {reply : Reply}
    (effect : Mailbox.Effect P m call reply m') (accepted : deletes request (call, reply) = true) :
    Mailbox.Spent request.validUntil.toNat (Mailbox.AckRemembered request) call.clock m' := by
  obtain ⟨same, _, rfl, success⟩ := took_iff.mp accepted
  cases of_decide_eq_true success
  rw [same] at effect ⊢
  cases effect with
  | deleted _ _ timely =>
      have near := timely.near
      have week : request.validUntil.toNat ≤ call.now.toNat + 604800 := by omega
      refine .inr (.inr ⟨week, Mailbox.hasTombstone_bury _ _ _ week, ?_⟩)
      intro row member
      exact (Mailbox.mem_messages_bury.mp member).2

theorem not_deletes_of_spent {request : AckRequest} {time : Nat} {m m' : Mailbox} {call : Call P}
    {reply : Reply}
    (spent : Mailbox.Spent request.validUntil.toNat (Mailbox.AckRemembered request) time m)
    (later : time ≤ call.clock) (effect : Mailbox.Effect P m call reply m')
    (accepted : deletes request (call, reply) = true) : False := by
  obtain ⟨same, _, rfl, success⟩ := took_iff.mp accepted
  cases of_decide_eq_true success
  rw [Call.clock] at later
  rw [same] at effect
  cases effect with
  | deleted _ _ timely authorised row found =>
      have future := timely.future
      obtain passed | gone | ⟨_, _, unused⟩ := spent
      · omega
      · exact authorised.live gone.noRow
      · have own : row.messageId = request.messageId.toList := by
          simpa using List.find?_some found
        exact unused.sweep _ row (List.mem_of_find?_eq_some found) own

/-- The queue of a successful request is the one it names. -/
theorem queueId_of_took {request : UInt64 → Call P} {success : Answer → Bool} {q : QueueId}
    (named : ∀ now, (request now).queueId? = some q) {call : Call P} {reply : Reply}
    (accepted : took request success (call, reply) = true) : call.queueId? = some q := by
  obtain ⟨same, _⟩ := took_iff.mp accepted
  rw [same]
  exact named call.now

def onceStored (P : Primitives) (request : SendRequest) :
    Once (Relay.step P) Call.clock (stores request) :=
  once request.queueId (Mailbox.lasting_send request) (queueId_of_took fun _ => rfl)
    spent_of_stores not_stores_of_spent

def onceAnswered (P : Primitives) (request : FetchRequest) :
    Once (Relay.step P) Call.clock (answers request) :=
  once request.queueId (Mailbox.lasting_fetch request) (queueId_of_took fun _ => rfl)
    spent_of_answers not_answers_of_spent

def onceDeleted (P : Primitives) (request : AckRequest) :
    Once (Relay.step P) Call.clock (deletes request) :=
  once request.queueId (Mailbox.lasting_ack request) (queueId_of_took fun _ => rfl)
    spent_of_deletes not_deletes_of_spent

section Runs

variable {calls : List (Call P)}

/-- A lasting mark is kept by every run that goes on from a marked state. -/
theorem run_lasting {mark : Nat → Mailbox → Prop} (lasting : Mailbox.Lasting P mark)
    {r : Relay} (current : r.Current) {q : QueueId} {start : Nat}
    (marked : mark start (r.mailbox P q)) (early : ∀ call ∈ calls, start ≤ call.clock)
    (timed : Nondecreasing Call.clock calls) :
    mark (latest Call.clock start calls) ((run (Relay.step P) r calls).mailbox P q) := by
  have both : (run (Relay.step P) r calls).Current ∧
      mark (latest Call.clock start calls) ((run (Relay.step P) r calls).mailbox P q) :=
    invariant_timed_run (fun time (r : Relay) => r.Current ∧ mark time (r.mailbox P q))
      (fun _ _ call h later => ⟨current_step h.1 call, step_lasting lasting h.1 h.2 later⟩)
      ⟨current, marked⟩ early timed
  exact both.2

/-- What remembers a stored message survives every sweep at which the request
would still pass its time check. -/
theorem stored_remembered (timed : Nondecreasing Call.clock calls) {request : SendRequest}
    {entry : Call P × Reply} (member : entry ∈ history P calls)
    (accepted : stores request entry = true) {now : UInt64}
    (later : latest Call.clock 0 calls ≤ now.toNat)
    (valid : validateMessageExpiry request.expiresAt now = .ok ()) :
    ((Relay.after P calls).mailbox P request.queueId).Gone ∨
    (∃ row ∈ (((Relay.after P calls).mailbox P request.queueId).sweep now.toNat).messages,
      row.messageId = request.messageId.toList) ∨
    ∃ row ∈ (((Relay.after P calls).mailbox P request.queueId).sweep now.toNat).tombstones,
      row.messageId = request.messageId.toList := by
  obtain ⟨future, _⟩ := validateMessageExpiry_eq_ok.mp valid
  rcases (onceStored P request).mark_of_accepted current_empty timed member accepted 0 with
    passed | gone | ⟨_, message | tombstone⟩
  · omega
  · exact .inl gone
  · obtain ⟨row, stored, own, _⟩ := (message.sweep now.toNat).resolve_left (by omega)
    exact .inr (.inl ⟨row, stored, own⟩)
  · obtain ⟨row, stored, own, _⟩ := (tombstone.sweep now.toNat).resolve_left (by omega)
    exact .inr (.inr ⟨row, stored, own⟩)

theorem answered_remembered (timed : Nondecreasing Call.clock calls) {request : FetchRequest}
    {entry : Call P × Reply} (member : entry ∈ history P calls)
    (accepted : answers request entry = true) {now : UInt64}
    (later : latest Call.clock 0 calls ≤ now.toNat)
    (valid : validateRequestTime request.validUntil now = .ok ()) :
    ((Relay.after P calls).mailbox P request.queueId).Gone ∨
    ∃ row ∈ (((Relay.after P calls).mailbox P request.queueId).sweep now.toNat).requestNonces,
      row.role = .receive ∧ row.nonce = request.nonce.toList := by
  obtain ⟨future, _⟩ := validateRequestTime_eq_ok.mp valid
  rcases (onceAnswered P request).mark_of_accepted current_empty timed member accepted 0 with
    passed | gone | nonce
  · omega
  · exact .inl gone
  · obtain ⟨row, stored, role, own, _⟩ :=
      (Mailbox.HasNonce.sweep nonce now.toNat).resolve_left (by omega)
    exact .inr ⟨row, stored, role, own⟩

theorem deleted_remembered (timed : Nondecreasing Call.clock calls) {request : AckRequest}
    {entry : Call P × Reply} (member : entry ∈ history P calls)
    (accepted : deletes request entry = true) {now : UInt64}
    (later : latest Call.clock 0 calls ≤ now.toNat)
    (valid : validateRequestTime request.validUntil now = .ok ()) :
    ((Relay.after P calls).mailbox P request.queueId).Gone ∨
    ∃ row ∈ (((Relay.after P calls).mailbox P request.queueId).sweep now.toNat).tombstones,
      row.messageId = request.messageId.toList := by
  obtain ⟨future, _⟩ := validateRequestTime_eq_ok.mp valid
  rcases (onceDeleted P request).mark_of_accepted current_empty timed member accepted 0 with
    passed | gone | ⟨_, tombstone, _⟩
  · omega
  · exact .inl gone
  · obtain ⟨row, stored, own, _⟩ := (tombstone.sweep now.toNat).resolve_left (by omega)
    exact .inr ⟨row, stored, own⟩

/-- An accepted message expires at most a week after its acceptance. -/
theorem expiry_of_stored {request : SendRequest} {entry : Call P × Reply}
    (member : entry ∈ history P calls) (accepted : stores request entry = true) :
    request.expiresAt.toNat ≤ entry.1.clock + 604800 := by
  obtain ⟨call, reply⟩ := entry
  obtain ⟨_, _, _, _, _, _, _, effect⟩ :=
    history_effect member (queueId_of_took (fun _ => rfl) accepted)
  obtain ⟨same, _, rfl, success⟩ := took_iff.mp accepted
  cases of_decide_eq_true success
  rw [Call.clock]
  rw [same] at effect
  cases effect with
  | stored _ _ _ timely => exact timely.near

/-- After an acknowledgement deleted a message, every message under its id was
stored after the tombstone lapsed. -/
theorem superseded_after {before later : List (Call P)} {request : AckRequest} {now : UInt64}
    (timed : Nondecreasing Call.clock (before ++ .acknowledge request now :: later))
    (deleted : ((Relay.after P before).step P (.acknowledge request now)).1 =
      .ok (.acknowledged .deleted)) :
    Mailbox.Superseded request.messageId (now.toNat + 604800)
      (latest Call.clock now.toNat later)
      ((Relay.after P (before ++ .acknowledge request now :: later)).mailbox P
        request.queueId) := by
  obtain ⟨early, timed⟩ := List.pairwise_cons.mp timed.right
  have current := current_after (P := P) before
  have marked : Mailbox.Superseded request.messageId (now.toNat + 604800) now.toNat
      (((Relay.after P before).step P (.acknowledge request now)).2.mailbox P request.queueId) := by
    have effect := (Relay.after P before).own_effect (P := P) (.acknowledge request now) rfl
    rw [deleted] at effect
    generalize ((Relay.after P before).step P (.acknowledge request now)).2.mailbox P
      request.queueId = m' at effect ⊢
    cases effect with
    | deleted =>
        refine .inr ⟨by omega, .inr (Mailbox.hasTombstone_bury _ _ _ (by omega)), ?_⟩
        intro row member own
        exact absurd own (Mailbox.mem_messages_bury.mp member).2
  rw [Relay.after, run_append]
  exact run_lasting (Mailbox.lasting_superseded _ _) (current_step current _) marked early timed

/-- Replay safety. In a run with nondecreasing clock, each signed send, fetch and
acknowledgement takes effect at most once, however often it is submitted. The row
that remembers it survives every sweep at which the request would still pass its
own time check, unless the mailbox was deleted. After an acknowledgement deleted
the message of a send request, no row of that request returns: whatever is
stored under its queue and message id expires later than the request does, and
more than a week after the acknowledgement. -/
theorem replay_safety (calls : List (Call P)) (timed : Nondecreasing Call.clock calls) :
    ((∀ request, (history P calls).countP (stores request) ≤ 1) ∧
      (∀ request, (history P calls).countP (answers request) ≤ 1) ∧
      ∀ request, (history P calls).countP (deletes request) ≤ 1) ∧
    (∀ now : UInt64, latest Call.clock 0 calls ≤ now.toNat → ∀ entry ∈ history P calls,
      (∀ request, stores request entry = true →
        validateMessageExpiry request.expiresAt now = .ok () →
        ((Relay.after P calls).mailbox P request.queueId).Gone ∨
        (∃ row ∈ (((Relay.after P calls).mailbox P request.queueId).sweep now.toNat).messages,
          row.messageId = request.messageId.toList) ∨
        ∃ row ∈ (((Relay.after P calls).mailbox P request.queueId).sweep now.toNat).tombstones,
          row.messageId = request.messageId.toList) ∧
      (∀ request, answers request entry = true →
        validateRequestTime request.validUntil now = .ok () →
        ((Relay.after P calls).mailbox P request.queueId).Gone ∨
        ∃ row ∈ (((Relay.after P calls).mailbox P request.queueId).sweep now.toNat).requestNonces,
          row.role = .receive ∧ row.nonce = request.nonce.toList) ∧
      ∀ request, deletes request entry = true →
        validateRequestTime request.validUntil now = .ok () →
        ((Relay.after P calls).mailbox P request.queueId).Gone ∨
        ∃ row ∈ (((Relay.after P calls).mailbox P request.queueId).sweep now.toNat).tombstones,
          row.messageId = request.messageId.toList) ∧
    ∀ (before later : List (Call P)) (ack : AckRequest) (now : UInt64),
      calls = before ++ .acknowledge ack now :: later →
      ((Relay.after P before).step P (.acknowledge ack now)).1 = .ok (.acknowledged .deleted) →
      ∀ request, (∃ entry ∈ history P before, stores request entry = true) →
        request.queueId = ack.queueId → request.messageId = ack.messageId →
        ∀ row ∈ (Relay.after P calls).image.tables.messages.contents,
          row.queueId = request.queueId.toList → row.messageId = request.messageId.toList →
          request.expiresAt.toNat < row.expiresAt ∧ now.toNat + 604800 < row.expiresAt := by
  refine ⟨⟨?_, ?_, ?_⟩, ?_, ?_⟩
  · intro request
    exact (onceStored P request).countP_le_one current_empty timed
  · intro request
    exact (onceAnswered P request).countP_le_one current_empty timed
  · intro request
    exact (onceDeleted P request).countP_le_one current_empty timed
  · intro now later entry member
    refine ⟨?_, ?_, ?_⟩
    · intro request accepted valid
      exact stored_remembered timed member accepted later valid
    · intro request accepted valid
      exact answered_remembered timed member accepted later valid
    · intro request accepted valid
      exact deleted_remembered timed member accepted later valid
  · rintro before later ack now rfl deleted request ⟨entry, member, accepted⟩ sameQueue sameId
      row stored ownQueue ownId
    have week := expiry_of_stored member accepted
    have earlier : entry.1.clock ≤ now.toNat :=
      (List.pairwise_append.mp timed).2.2 entry.1 (fst_mem_of_mem_trace member)
        (.acknowledge ack now) (by simp)
    rw [sameQueue] at ownQueue
    rw [sameId] at ownId
    have inView : row ∈ ((Relay.after P (before ++ .acknowledge ack now :: later)).mailbox P
        ack.queueId).messages := List.mem_filter.mpr ⟨stored, by simpa using ownQueue⟩
    obtain gone | ⟨_, _, superseded⟩ := superseded_after timed deleted
    · rw [gone.noMessages] at inView
      cases inView
    · have late := superseded row inView ownId
      omega

end Runs

namespace Resubmission

def owner : MailboxOwner .symbolic := .symbolic 1
def sent : SendRequest := owner.senderCapability.authorize (.fill 16 9) [1, 2, 3] 1000
def read : FetchRequest := owner.receiverCapability.authorizeFetch (.fill 16 7) 160
def acked : AckRequest :=
  owner.receiverCapability.authorizeAck
    ⟨⟨1, .fill 16 0, .fill 16 9, 0, ""⟩, ⟨owner.queueId, .fill 16 9, [1, 2, 3], 1000⟩⟩ 160

/-- Every request of this run is submitted twice, and the message a third time
after its deletion. -/
def resubmitted : List (Call .symbolic) :=
  [.register (owner.registration (.fill 16 5) 160) 100, .enqueue sent 100, .enqueue sent 101,
    .fetch read 102, .fetch read 103, .acknowledge acked 104, .acknowledge acked 105,
    .reopen 106, .enqueue sent 107]

end Resubmission

open Resubmission in
theorem replay_safety_resubmitted :
    ((history .symbolic resubmitted).countP (stores sent) = 1 ∧
      (history .symbolic resubmitted).countP (answers read) = 1 ∧
      (history .symbolic resubmitted).countP (deletes acked) = 1) ∧
    (history .symbolic resubmitted).countP (stores sent) ≤ 1 :=
  ⟨by decide +kernel, (replay_safety resubmitted (by unfold Nondecreasing; decide)).1.1 sent⟩

end Relay

end SecureMessenger
