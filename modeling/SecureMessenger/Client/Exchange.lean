import SecureMessenger.Client.Refinement

/-!
# Exchanging messages

`establish` is how the demonstration program begins a conversation: the ends exchange
verified bundles, register their mailboxes, and one of them starts a session. From there
on the turns are observed as two queues say, whatever a relay in use already holds and
whatever is submitted in between.

A message that expires leaves the relay's queue unread, so the two queues are those of turns
within a window that every message outlives. `Schedule` says what else is asked of the turns.
-/

namespace SecureMessenger

open Fallible Machine

variable {P : Primitives} {L : Olm P}

/-- What an end draws before the conversation. -/
structure Party (L : Olm P) where
  account : L.Account
  inbox : MailboxOwner P
  entropy : Bytes
  nonce : Nonce

namespace Conversation

def establish (relay : Relay) (conversationId : ConversationId) (party : Side → Party L)
    (entropy : Bytes) (validUntil now : UInt64) :
    Except LabError (Setting P × Conversation L) := do
  let (aliceBundle, alice) :=
    (OlmClient.new (party .alice).account conversationId).prekeyBundle validUntil
      (party .alice).entropy
  let aliceBundle ← aliceBundle
  let (bobBundle, bob) :=
    (OlmClient.new (party .bob).account conversationId).prekeyBundle validUntil
      (party .bob).entropy
  let bobBundle ← bobBundle
  let verifiedAlice ← aliceBundle.verify alice.signingIdentity now
  let verifiedBob ← bobBundle.verify bob.signingIdentity now
  let aliceRegistration := (party .alice).inbox.registration (party .alice).nonce validUntil
  let bobRegistration := (party .bob).inbox.registration (party .bob).nonce validUntil
  let (registered, relay) := relay.register P aliceRegistration now
  let _ ← registered
  let (registered, relay) := relay.register P bobRegistration now
  let _ ← registered
  let (started, alice) := alice.startOutboundSession verifiedBob now entropy
  started
  .ok (⟨fun side => (party side).inbox, Side.pick verifiedAlice verifiedBob⟩,
    { relay
      client := Side.pick alice bob
      submitted := [.register aliceRegistration now, .register bobRegistration now] })

end Conversation

namespace OlmClient

/-- The account after a bundle was exported. -/
def published (L : Olm P) (account : L.Account) (entropy : Bytes) : L.Account :=
  L.markKeysAsPublished (L.generateOneTimeKeys account 1 entropy)

theorem startOutboundSession_of_created {c : OlmClient L} {peer : VerifiedPeerPreKey P}
    {now : UInt64} {entropy : Bytes} {session : L.Session} (absent : c.session = none)
    (unexpired : now < peer.validUntil)
    (created : L.createOutboundSession c.account peer.curveIdentity peer.oneTimeKey entropy =
      some session) :
    c.startOutboundSession peer now entropy = (.ok (), { c with session := some session }) := by
  simp only [startOutboundSession, stageOutbound, absent, Option.isSome_none, Bool.false_eq_true,
    not_false_eq_true, rejectIf_of_not, rejectIf_of_not (UInt64.not_le.mpr unexpired), ok_bind,
    created]
  rfl

/-- A new client exports a bundle that its peer verifies. -/
theorem prekeyBundle_verifies (ratchet : Ratchet L) (account : L.Account)
    (conversationId : ConversationId) (entropy : Bytes) {validUntil now : UInt64}
    (timely : Mailbox.Timely 300 validUntil now) :
    ∃ bundle oneTimeKey,
      (new account conversationId).prekeyBundle validUntil entropy =
        (.ok bundle, new (published L account entropy) conversationId) ∧
      (L.oneTimeKeys (L.generateOneTimeKeys account 1 entropy)).head? = some oneTimeKey ∧
      bundle.verify (new (published L account entropy) conversationId).signingIdentity now =
        .ok { signingIdentity := L.ed25519Key account
              curveIdentity := L.curve25519Key account
              oneTimeKey
              validUntil } := by
  cases keys : L.oneTimeKeys (L.generateOneTimeKeys account 1 entropy) with
  | nil => exact absurd keys (ratchet.oneTimeKey account entropy)
  | cons oneTimeKey others =>
      let signed := L.sign (L.generateOneTimeKeys account 1 entropy)
        (peerPrekeySigningBytes (L.ed25519Key account) (L.curve25519Key account) oneTimeKey
          validUntil)
      let bundle : PeerPreKey P :=
        ⟨L.ed25519Key account, L.curve25519Key account, oneTimeKey, validUntil, signed⟩
      refine ⟨bundle, oneTimeKey, ?_, rfl, ?_⟩
      · simp only [prekeyBundle, new, keys, ratchet.ed25519Key_generate,
          ratchet.curve25519Key_generate]
        rfl
      · have identity : (new (published L account entropy) conversationId).signingIdentity =
            L.ed25519Key account := by
          simp only [signingIdentity, new, published, ratchet.ed25519Key_mark,
            ratchet.ed25519Key_generate]
        have verified : (L.ed25519Key account).verify bundle.signingBytes bundle.signature =
            true := by
          have signs := ratchet.signs (L.generateOneTimeKeys account 1 entropy)
            bundle.signingBytes
          rwa [ratchet.ed25519Key_generate] at signs
        have future : ¬ validUntil ≤ now :=
          UInt64.not_le.mpr (UInt64.lt_iff_toNat_lt.mpr timely.future)
        have near : ¬ validUntil > saturatingAdd now contactBundleMaxValiditySeconds := by
          have bound := validUntil.toNat_lt
          have minutes : contactBundleMaxValiditySeconds.toNat = 300 := rfl
          have window := timely.near
          rw [gt_iff_lt, UInt64.lt_iff_toNat_lt, toNat_saturatingAdd]
          omega
        rw [identity, PeerPreKey.verify,
          rejectIf_of_not (not_or.mpr ⟨not_not_intro rfl, not_or.mpr ⟨future, near⟩⟩), ok_bind,
          rejectIf_of_not (by simp [verified]), ok_bind]

end OlmClient

namespace Hosting

/-- Both ends register mailboxes that nobody has claimed. -/
theorem register (setting : Setting P) {relay : Relay} (current : relay.Current)
    (genuine : P.Genuine)
    (apart : ∀ side, (setting.inbox side).queueId ≠ (setting.inbox side.peer).queueId)
    (sound : ∀ side, (relay.mailbox P (setting.inbox side).queueId).Sound)
    (unclaimed : ∀ side, (relay.mailbox P (setting.inbox side).queueId).Unclaimed)
    {horizon : Nat} {validUntil now : UInt64} (timely : Mailbox.Timely 300 validUntil now)
    (fits : validUntil.toNat < 2 ^ 63) (early : now.toNat < horizon) (nonce : Side → Nonce) :
    let request := fun side => (setting.inbox side).registration (nonce side) validUntil
    let first := relay.register P (request .alice) now
    let second := first.2.register P (request .bob) now
    first.1 = .ok true ∧ second.1 = .ok true ∧
      Hosting setting horizon (fun _ => .empty) second.2
        [.register (request .alice) now, .register (request .bob) now] := by
  intro request first second
  let call := fun side => (Call.register (request side) now : Call P)
  have own : ∀ side, (call side).queueId? = some (setting.inbox side).queueId := fun _ => rfl
  have foreign : ∀ side, (call side).queueId? ≠ some (setting.inbox side.peer).queueId :=
    fun side same => apart side (Option.some.inj same)
  obtain ⟨reply, holds⟩ := (unclaimed .alice).register (sound .alice) genuine
    (setting.inbox .alice) horizon (nonce .alice) timely fits
  have next : first.2.Current := Relay.current_step current (call .alice)
  have still : (first.2.mailbox P (setting.inbox .bob).queueId).Unclaimed :=
    Relay.unclaimed_step current (foreign .alice) rfl (unclaimed .bob)
  have bystander := Relay.step_other current (foreign .alice)
  obtain ⟨reply', holds'⟩ := still.register ((sound .bob).stands bystander) genuine
    (setting.inbox .bob) horizon (nonce .bob) timely fits
  refine ⟨eq_ok_of_map Answer.registered.inj ((relay.step_own (own .alice)).1.trans reply),
    eq_ok_of_map Answer.registered.inj ((first.2.step_own (own .bob)).1.trans reply'),
    Relay.current_step next (call .bob), ?_, ?_⟩
  · intro side
    cases side with
    | alice =>
        rw [← (relay.step_own (own .alice)).2] at holds
        exact holds.stands early (Relay.step_other next (foreign .bob))
    | bob =>
        rw [← (first.2.step_own (own .bob)).2] at holds'
        exact holds'
  · intro earlier member side _
    simp only [List.mem_cons, List.not_mem_nil, or_false] at member
    obtain rfl | rfl := member <;> trivial

end Hosting

/-- A mail of which nothing was ever sent. -/
def Mail.empty : Mail L := ⟨fun _ => [], fun _ => [], fun _ => []⟩

namespace Conversation

section Establish

variable (ratchet : Ratchet L) (genuine : P.Genuine) {relay : Relay} (current : relay.Current)
  (conversationId : ConversationId) (party : Side → Party L)
  (apart : ∀ side, (party side).inbox.queueId ≠ (party side.peer).inbox.queueId)
  (sound : ∀ side, (relay.mailbox P (party side).inbox.queueId).Sound)
  (unclaimed : ∀ side, (relay.mailbox P (party side).inbox.queueId).Unclaimed)

include ratchet genuine current apart sound unclaimed in
/-- The set-up succeeds, and the conversation begins without mail. -/
theorem establish_tracks (entropy : Bytes) {validUntil now : UInt64}
    (timely : Mailbox.Timely 300 validUntil now) (fits : validUntil.toNat < 2 ^ 63) :
    ∃ setting s, establish relay conversationId party entropy validUntil now = .ok (setting, s) ∧
      (∀ side, setting.inbox side = (party side).inbox) ∧ (s.client .bob).session = none ∧
      (s.relay = run (Relay.step P) relay s.submitted ∧
        ∀ call ∈ s.submitted, ∃ request, call = .register request now) ∧
      ∀ horizon, now.toNat < horizon →
        Tracks setting ratchet conversationId horizon .empty s := by
  obtain ⟨aliceBundle, aliceKey, exported, _, verified⟩ := OlmClient.prekeyBundle_verifies ratchet
    (party .alice).account conversationId (party .alice).entropy timely
  obtain ⟨bobBundle, bobKey, exported', oneTime, verified'⟩ := OlmClient.prekeyBundle_verifies
    ratchet (party .bob).account conversationId (party .bob).entropy timely
  obtain ⟨session, created, offered⟩ := ratchet.offers
    (OlmClient.published L (party .alice).account (party .alice).entropy) (party .bob).account
    (party .bob).entropy bobKey entropy oneTime
  let fresh := fun side => OlmClient.new
    (OlmClient.published L (party side).account (party side).entropy) conversationId
  have started : (fresh .alice).startOutboundSession
      { signingIdentity := L.ed25519Key (party .bob).account
        curveIdentity := L.curve25519Key (party .bob).account
        oneTimeKey := bobKey
        validUntil } now entropy = (.ok (), { fresh .alice with session := some session }) :=
    OlmClient.startOutboundSession_of_created rfl (UInt64.lt_iff_toNat_lt.mpr timely.future)
      created
  let contact : Side → VerifiedPeerPreKey P := Side.pick
    ⟨L.ed25519Key (party .alice).account, L.curve25519Key (party .alice).account, aliceKey,
      validUntil⟩
    ⟨L.ed25519Key (party .bob).account, L.curve25519Key (party .bob).account, bobKey, validUntil⟩
  let setting : Setting P := ⟨fun side => (party side).inbox, contact⟩
  let registration := fun side => (party side).inbox.registration (party side).nonce validUntil
  let first := relay.register P (registration .alice) now
  let second := first.2.register P (registration .bob) now
  have hosting := fun horizon (early : now.toNat < horizon) => Hosting.register setting current
    genuine apart sound unclaimed timely fits early fun side => (party side).nonce
  obtain ⟨registered, registered', _⟩ := hosting (now.toNat + 1) (Nat.lt_succ_self _)
  refine ⟨setting, ⟨second.2, Side.pick { fresh .alice with session := some session } (fresh .bob),
    [.register (registration .alice) now, .register (registration .bob) now]⟩, ?_,
    fun _ => rfl, rfl, ⟨rfl, ?_⟩, ?_⟩
  · have one : relay.register P (registration .alice) now = (.ok true, first.2) :=
      Prod.ext registered rfl
    have two : first.2.register P (registration .bob) now = (.ok true, second.2) :=
      Prod.ext registered' rfl
    simp only [establish, exported, exported', ok_bind, verified, verified']
    simp only [registration] at one two
    simp only [one, two, ok_bind]
    simp only [fresh] at started
    simp only [started, ok_bind]
    rfl
  · intro call member
    simp only [List.mem_cons, List.not_mem_nil, or_false] at member
    obtain rfl | rfl := member <;> exact ⟨_, rfl⟩
  · intro horizon early
    refine ⟨(hosting horizon early).2.2, fun _ => List.forall_mem_nil _, ?_, ?_, ?_⟩
    · intro side
      cases side <;> rfl
    · intro side messageId member
      cases side <;> cases Finset.notMem_empty _ member
    · refine .offered session rfl rfl ?_ rfl
      rw [OlmClient.published, ratchet.curve25519Key_mark,
        ratchet.curve25519Key_generate] at offered
      exact offered

end Establish

end Conversation

namespace Turn

/-- The id of a message that is sent. -/
def messageId? : Turn P → Option MessageId
  | .send _ draft _ => some draft.messageId
  | _ => none

/-- The nonce of a fetch at one end. -/
def nonce? (side : Side) : Turn P → Option Nonce
  | .receive other nonce _ _ => if other = side then some nonce else none
  | _ => none

/-- A turn within the window. Messages last until its end, and a stranger cannot sign for
the two mailboxes. -/
def Fair (setting : Setting P) (bodyLimit start horizon : Nat) : Turn P → Prop
  | .send _ draft now =>
      now.toNat < horizon ∧ Mailbox.Timely 604800 draft.expiresAt now ∧
        horizon ≤ draft.expiresAt.toNat ∧ draft.body.utf8ByteSize ≤ bodyLimit
  | .receive _ _ validUntil now =>
      start ≤ now.toNat ∧ now.toNat < horizon ∧ Mailbox.Timely 300 validUntil now
  | .replay _ now => now.toNat < horizon
  | .intrude call => call.clock < horizon ∧ setting.Spares (fun _ => .empty) call

end Turn

/-- Turns in any order, within a week, where no message id and no nonce is drawn twice. -/
structure Schedule (setting : Setting P) (bodyLimit start horizon : Nat)
    (turns : List (Turn P)) : Prop where
  window : start < horizon ∧ horizon ≤ start + 604800
  limit : horizon + 604800 < 2 ^ 63
  fair : ∀ turn ∈ turns, turn.Fair setting bodyLimit start horizon
  messageIds : (turns.filterMap Turn.messageId?).Nodup
  nonces : ∀ side, (turns.filterMap (Turn.nonce? side)).Nodup

/-- What the turns still to come will use is not used yet. -/
structure Mail.Spare (mail : Mail L) (turns : List (Turn P)) : Prop where
  messageIds : ∀ messageId ∈ turns.filterMap Turn.messageId?,
    ∀ side, messageId ∉ (mail.traffic side).ids
  nonces : ∀ side, ∀ nonce ∈ turns.filterMap (Turn.nonce? side), nonce ∉ mail.nonces side

theorem Schedule.tail {setting : Setting P} {bodyLimit start horizon : Nat} {turn : Turn P}
    {turns : List (Turn P)}
    (schedule : Schedule setting bodyLimit start horizon (turn :: turns)) :
    Schedule setting bodyLimit start horizon turns where
  window := schedule.window
  limit := schedule.limit
  fair := fun later member => schedule.fair later (List.mem_cons_of_mem _ member)
  messageIds := schedule.messageIds.sublist ((List.sublist_cons_self _ _).filterMap _)
  nonces side := (schedule.nonces side).sublist ((List.sublist_cons_self _ _).filterMap _)

/-- A value that one element of a list yields is yielded by no other. -/
theorem ne_of_nodup_filterMap {α β : Type} {f : α → Option β} {a : α} {list : List α}
    (nodup : ((a :: list).filterMap f).Nodup) {b : β} (later : b ∈ list.filterMap f) :
    f a ≠ some b := by
  intro same
  rw [List.filterMap_cons_some same, List.nodup_cons] at nodup
  exact nodup.1 later

/-- A turn uses nothing but its own id or nonce. -/
theorem Mail.Spare.next {setting : Setting P} {bodyLimit start horizon : Nat} {turn : Turn P}
    {turns : List (Turn P)} {mail later : Mail L} (spare : mail.Spare (turn :: turns))
    (schedule : Schedule setting bodyLimit start horizon (turn :: turns))
    (ids : ∀ side, ∀ messageId ∈ (later.traffic side).ids,
      messageId ∈ (mail.traffic side).ids ∨ turn.messageId? = some messageId)
    (noted : ∀ side, ∀ nonce ∈ later.nonces side,
      nonce ∈ mail.nonces side ∨ turn.nonce? side = some nonce) :
    later.Spare turns where
  messageIds messageId coming side used := by
    obtain old | new := ids side messageId used
    · exact spare.messageIds messageId
        ((List.sublist_cons_self _ _).filterMap _ |>.subset coming) side old
    · exact ne_of_nodup_filterMap schedule.messageIds coming new
  nonces side nonce coming used := by
    obtain old | new := noted side nonce used
    · exact spare.nonces side nonce
        ((List.sublist_cons_self _ _).filterMap _ |>.subset coming) old
    · exact ne_of_nodup_filterMap (schedule.nonces side) coming new

/-- The conversation and the two queues, before the turns that are still to come. -/
structure Follows (setting : Setting P) (ratchet : Ratchet L) (conversationId : ConversationId)
    (start horizon : Nat) (turns : List (Turn P)) (s : Conversation L) (c : Channels) : Prop where
  schedule : Schedule setting ratchet.bodyLimit start horizon turns
  tracks : ∃ mail : Mail L, Tracks setting ratchet conversationId horizon mail s ∧
    mail.Spare turns ∧ c = mail.channels (s.client .bob).session.isSome

/-- An end can send when it has a session. -/
theorem Paired.ready {ratchet : Ratchet L} {setting : Setting P} {client : Side → OlmClient L}
    {way : Side → L.Way} (paired : Paired ratchet setting client way) (mail : Mail L)
    (side : Side) : (mail.channels (client .bob).session.isSome).ready side =
      (client side).session.isSome := by
  cases side with
  | bob => rfl
  | alice =>
      cases paired with
      | offered session present =>
          rw [present]
          rfl
      | linked session present =>
          rw [present .alice]
          rfl

/-- A call that cannot be signed harms no traffic. -/
theorem Setting.Spares.of_empty {setting : Setting P} {call : Call P}
    (spares : setting.Spares (fun _ => .empty) call) (traffic : Side → Traffic) :
    setting.Spares traffic call :=
  fun side own => (spares side own).mono
    ⟨List.nil_subset _, List.nil_subset _, List.nil_subset _⟩

namespace Follows

variable {setting : Setting P} {ratchet : Ratchet L} {conversationId : ConversationId}
  {start horizon : Nat} {turns : List (Turn P)} {s : Conversation L} {c : Channels}

/-- Turns that leave the mail alone. -/
theorem unseen {turn : Turn P}
    (follows : Follows setting ratchet conversationId start horizon (turn :: turns) s c)
    {call : Call P} (early : call.clock < horizon)
    (spares : ∀ mail : Mail L, Tracks setting ratchet conversationId horizon mail s →
      setting.Spares mail.traffic call) :
    Follows setting ratchet conversationId start horizon turns
      { s with relay := (s.relay.step P call).2 } c := by
  obtain ⟨mail, tracks, spare, same⟩ := follows.tracks
  exact ⟨follows.schedule.tail, mail, tracks.intrude (spares mail tracks) early,
    spare.next follows.schedule (fun _ _ => .inl) (fun _ _ => .inl), same⟩

variable (genuine : P.Genuine)
  (apart : ∀ side, (setting.inbox side).queueId ≠ (setting.inbox side.peer).queueId)
include genuine apart

theorem send {side : Side} {draft : Draft} {now : UInt64}
    (follows : Follows setting ratchet conversationId start horizon
      (.send side draft now :: turns) s c) :
    let turn : Turn P := .send side draft now
    (s.step setting turn).1 = (c.step conversationId turn).1 ∧
      Follows setting ratchet conversationId start horizon turns (s.step setting turn).2
        (c.step conversationId turn).2 := by
  intro turn
  obtain ⟨mail, tracks, spare, rfl⟩ := follows.tracks
  obtain ⟨early, timely, lasting, short⟩ := follows.schedule.fair _ (List.mem_cons_self ..)
  have ready := tracks.paired.ready mail side
  cases present : (s.client side).session with
  | none =>
      rw [present, Option.isSome_none] at ready
      simp only [turn, Conversation.step, Conversation.sendMessage_of_absent ratchet present,
        Channels.step, ready, Bool.false_eq_true, if_false]
      exact ⟨rfl, follows.schedule.tail, mail, tracks,
        spare.next follows.schedule (fun _ _ => .inl) (fun _ _ => .inl), rfl⟩
  | some session =>
      rw [present, Option.isSome_some] at ready
      have fresh := spare.messageIds draft.messageId (List.mem_cons_self ..) side.peer
      obtain ⟨parcel, packet, moved, plain, request, sealed, stored, later⟩ :=
        tracks.send genuine apart follows.schedule.limit present draft short timely early lasting
          fresh
      have message : parcel.plain = ⟨payloadVersion, conversationId, draft.messageId, now,
          draft.body⟩ := by
        rw [plain, OlmClient.plain, tracks.conversation side]
      have answered : (Function.update s.client side { s.client side with session := some moved }
          .bob).session.isSome = (s.client .bob).session.isSome := by
        cases side with
        | alice => rfl
        | bob => rw [present]; rfl
      have spared : (mail.post side.peer parcel).Spare turns := by
        refine spare.next follows.schedule (fun other used member => ?_) (fun _ _ => .inl)
        obtain old | rfl := mail.mem_ids_post _ member
        · exact .inl old
        · exact .inr (congrArg some (congrArg SendRequest.messageId request).symm)
      rw [request] at stored later
      simp only [turn, Conversation.step, Conversation.sendMessage, sealed, Channels.step, ready,
        if_true, stored]
      refine ⟨rfl, follows.schedule.tail, mail.post side.peer parcel, later, spared, ?_⟩
      rw [Prod.map_snd, id, answered, Mail.channels_post, message]

theorem receive {side : Side} {nonce : Nonce} {validUntil now : UInt64}
    (follows : Follows setting ratchet conversationId start horizon
      (.receive side nonce validUntil now :: turns) s c) :
    let turn : Turn P := .receive side nonce validUntil now
    (s.step setting turn).1 = (c.step conversationId turn).1 ∧
      Follows setting ratchet conversationId start horizon turns (s.step setting turn).2
        (c.step conversationId turn).2 := by
  intro turn
  obtain ⟨mail, tracks, spare, rfl⟩ := follows.tracks
  obtain ⟨since, early, timely⟩ := follows.schedule.fair _ (List.mem_cons_self ..)
  have week : horizon ≤ now.toNat + 604800 := by
    have window := follows.schedule.window.2
    omega
  have fresh := spare.nonces side nonce (by simp [Turn.nonce?])
  obtain ⟨fetched, noted⟩ :=
    tracks.fetch genuine apart follows.schedule.limit side timely early fresh
  have spare : (mail.note side nonce).Spare turns := by
    refine spare.next follows.schedule (fun _ _ => .inl) fun other used member => ?_
    obtain old | ⟨rfl, rfl⟩ := mail.mem_nonces_note _ member
    · exact .inl old
    · exact .inr (if_pos rfl)
  have observed : (mail.channels (s.client .bob).session.isSome).way side =
      (mail.parcels side).map Parcel.plain := rfl
  simp only [turn, Conversation.step, Conversation.receiveMessage, fetched, Channels.step, observed]
  cases waiting : mail.parcels side with
  | nil => exact ⟨rfl, follows.schedule.tail, mail.note side nonce, noted, spare, rfl⟩
  | cons first rest =>
      obtain ⟨account, moved, verified, opens, deleted, later⟩ :=
        noted.take genuine apart follows.schedule.limit waiting timely early week
      have answered : (Function.update s.client side
          ((s.client side).showing account moved first.plain.messageId) .bob).session.isSome =
          ((s.client .bob).session.isSome || decide (side = .bob)) := by
        cases side with
        | alice => exact (Bool.or_false _).symm
        | bob => exact (Bool.or_true _).symm
      simp only [List.map_cons, List.head?_cons, Conversation.take, verified, opens,
        Conversation.confirm, deleted]
      refine ⟨rfl, follows.schedule.tail, _, later, ?_, ?_⟩
      · exact ⟨fun messageId coming other used => spare.messageIds messageId coming other
          ((mail.note side nonce).mem_ids_deliver _ waiting used), spare.nonces⟩
      · rw [Prod.map_snd, id, answered, Mail.channels_deliver]
        rfl

/-- Every turn is observed as the two queues say. -/
theorem step {turn : Turn P}
    (follows : Follows setting ratchet conversationId start horizon (turn :: turns) s c) :
    (s.step setting turn).1 = (c.step conversationId turn).1 ∧
      Follows setting ratchet conversationId start horizon turns (s.step setting turn).2
        (c.step conversationId turn).2 := by
  have fair := follows.schedule.fair _ (List.mem_cons_self ..)
  cases turn with
  | send => exact follows.send genuine apart
  | receive => exact follows.receive genuine apart
  | intrude call =>
      exact ⟨rfl, follows.unseen fair.1 fun mail _ => fair.2.of_empty mail.traffic⟩
  | replay index now =>
      simp only [Conversation.step, Channels.step]
      cases submitted : s.submitted[index]? with
      | none =>
          obtain ⟨mail, tracks, spare, same⟩ := follows.tracks
          exact ⟨rfl, follows.schedule.tail, mail, tracks,
            spare.next follows.schedule (fun _ _ => .inl) (fun _ _ => .inl), same⟩
      | some call =>
          have early : (call.resubmit now).clock < horizon := by
            rw [Call.clock_resubmit]
            exact fair
          refine ⟨rfl, follows.unseen early fun mail tracks side own => ?_⟩
          rw [Call.queueId?_resubmit] at own
          exact (tracks.hosting.spares call (List.mem_of_getElem? submitted) side own).resubmit now

end Follows

/-- The conversation that two clients have over a relay in use is observed as two queues.
Whatever was submitted before, a set-up on unclaimed mailboxes succeeds. From there on, in
every `Schedule` of turns, a receive yields the oldest message that was sent and not yet
received, unchanged, and nothing else. A schedule has all its turns before a horizon within
a week of the set-up. Its messages do not expire before the horizon, their bodies keep to the
limit of the codec, no message id or nonce is drawn twice, and strangers cannot sign for the
two mailboxes. -/
theorem conversation_is_two_queues (ratchet : Ratchet L) (genuine : P.Genuine)
    (calls : List (Call P)) (conversationId : ConversationId) (party : Side → Party L)
    (apart : ∀ side, (party side).inbox.queueId ≠ (party side.peer).inbox.queueId)
    (unclaimed : ∀ side,
      ((Relay.after P calls).mailbox P (party side).inbox.queueId).Unclaimed)
    (entropy : Bytes) (validUntil now : UInt64) (timely : Mailbox.Timely 300 validUntil now)
    (fits : validUntil.toNat < 2 ^ 63) :
    ∃ setting s,
      Conversation.establish (Relay.after P calls) conversationId party entropy validUntil now =
        .ok (setting, s) ∧
      (∀ side, setting.inbox side = (party side).inbox) ∧
      ∀ horizon turns, Schedule setting ratchet.bodyLimit now.toNat horizon turns →
        trace (Conversation.step setting) s turns =
          trace (Channels.step conversationId) Channels.start turns := by
  obtain ⟨setting, s, established, inbox, absent, _, tracks⟩ :=
    Conversation.establish_tracks ratchet genuine (Relay.current_after calls) conversationId party
      apart (fun side => Relay.sound_after calls _) unclaimed entropy timely fits
  refine ⟨setting, s, established, inbox, fun horizon turns schedule => ?_⟩
  have distinct : ∀ side, (setting.inbox side).queueId ≠ (setting.inbox side.peer).queueId := by
    intro side
    rw [inbox, inbox]
    exact apart side
  refine trace_simulates (Follows setting ratchet conversationId now.toNat horizon)
    (fun follows => follows.step genuine distinct) ⟨schedule, .empty, ?_, ?_, ?_⟩
  · exact tracks horizon schedule.window.1
  · exact ⟨fun _ _ _ => List.not_mem_nil, fun _ _ _ => List.not_mem_nil⟩
  · rw [absent]
    rfl

namespace Dialogue

def party : Side → Party Olm.transparent :=
  Side.pick ⟨(), .symbolic 1, [], .fill 16 1⟩ ⟨(), .symbolic 11, [], .fill 16 2⟩

def stranger : MailboxOwner .symbolic := .symbolic 41

/-- Somebody else uses the relay already. -/
def calls : List (Call .symbolic) := [.register (stranger.registration (.fill 16 5) 160) 100]

def draft (tag : UInt8) (body : String) : Draft := ⟨.fill 16 tag, body, 5000, []⟩

/-- A message to the mailbox of the first end under a signature of the stranger. -/
def forged : SendRequest :=
  { (party .alice).inbox.senderCapability.authorize (.fill 16 7) [0] 5000 with
    signature := (stranger.senderCapability.authorize (.fill 16 7) [0] 5000).signature }

/-- The second end tries to answer before it has received anything; a message and an
acknowledgement are submitted again, and a message is forged. -/
def turns : List (Turn .symbolic) :=
  [.send .bob (draft 1 "early") 200, .send .alice (draft 2 "one") 201,
    .send .alice (draft 3 "two") 202, .replay 2 203, .receive .bob (.fill 16 1) 260 204,
    .replay 5 205, .replay 2 206, .send .bob (draft 4 "yes") 207, .intrude (.enqueue forged 208),
    .receive .bob (.fill 16 2) 260 209, .receive .alice (.fill 16 1) 260 210,
    .receive .alice (.fill 16 2) 260 211]

def plain (tag : UInt8) (sentAt : UInt64) (body : String) : PlainMessage :=
  ⟨payloadVersion, .fill 16 9, .fill 16 tag, sentAt, body⟩

def observations : List Observation :=
  [.sent (.error .missingSession), .sent (.ok .stored), .sent (.ok .stored), .unseen,
    .received (.ok (plain 2 201 "one")), .unseen, .unseen, .sent (.ok .stored), .unseen,
    .received (.ok (plain 3 202 "two")), .received (.ok (plain 4 207 "yes")),
    .received (.error .messageNotFound)]

theorem unclaimed : ∀ side,
    ((Relay.after .symbolic calls).mailbox .symbolic (party side).inbox.queueId).Unclaimed := by
  intro side
  cases side <;> exact ⟨by decide +kernel, by decide +kernel⟩

theorem schedule {setting : Setting .symbolic}
    (inbox : ∀ side, setting.inbox side = (party side).inbox) :
    Schedule setting Ratchet.transparent.bodyLimit 200 5000 turns where
  window := by decide
  limit := by decide
  fair := by
    have sending : ∀ side tag body now, now.toNat < 5000 → body.utf8ByteSize ≤ 1000000 →
        (Turn.send side (draft tag body) now).Fair setting 1000000 200 5000 :=
      fun _ _ _ now early short => ⟨early, ⟨early, by
        change 5000 ≤ now.toNat + 604800
        omega⟩, Nat.le_refl _, short⟩
    have receiving : ∀ side nonce now, 200 ≤ now.toNat → now.toNat < 260 →
        (Turn.receive side nonce 260 now).Fair setting 1000000 200 5000 :=
      fun _ _ now since early => ⟨since, early.trans (by decide), early, by
        change 260 ≤ now.toNat + 300
        omega⟩
    have replaying : ∀ index now, now.toNat < 5000 →
        (Turn.replay index now).Fair setting 1000000 200 5000 := fun _ _ early => early
    have forging : (Turn.intrude (.enqueue forged 208)).Fair setting 1000000 200 5000 := by
      refine ⟨by decide, fun side own signed => ?_⟩
      rw [inbox] at own signed
      cases side with
      | alice => exact absurd signed (by decide +kernel)
      | bob => exact absurd own (by decide)
    simp only [turns, List.forall_mem_cons]
    refine ⟨sending _ _ _ _ ?_ ?_, sending _ _ _ _ ?_ ?_, sending _ _ _ _ ?_ ?_,
      replaying _ _ ?_, receiving _ _ _ ?_ ?_, replaying _ _ ?_, replaying _ _ ?_,
      sending _ _ _ _ ?_ ?_, forging, receiving _ _ _ ?_ ?_, receiving _ _ _ ?_ ?_,
      receiving _ _ _ ?_ ?_, List.forall_mem_nil _⟩ <;> decide
  messageIds := by decide
  nonces := by
    intro side
    cases side <;> decide

end Dialogue

open Dialogue in
theorem conversation_is_two_queues_dialogue : ∃ setting s,
    Conversation.establish (Relay.after .symbolic calls) (.fill 16 9) party [] 260 200 =
      .ok (setting, s) ∧
    trace (Conversation.step setting) s turns = turns.zip observations := by
  obtain ⟨setting, s, established, inbox, observed⟩ := conversation_is_two_queues
    Ratchet.transparent Primitives.symbolic_genuine calls (.fill 16 9) party
    (by intro side; cases side <;> decide) unclaimed [] 260 200 ⟨by decide, by decide⟩ (by decide)
  exact ⟨setting, s, established, observed 5000 turns (schedule inbox)⟩

end SecureMessenger
