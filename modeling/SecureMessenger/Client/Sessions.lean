import SecureMessenger.Client.Staging

/-!
# Where sessions come from

A client has at most one session and gets it in one of two ways: it starts one from a
verified contact bundle, or it opens the first packet of a sender whose bundle it has
verified. A verified bundle may be kept for any time between the two calls.

Starting a session checks that the bundle is still valid; opening the first packet
checks the expiry of the envelope only, so an expired bundle still establishes an
inbound session. Where no first packet is opened under an expired bundle, every session
comes from a bundle that is valid at that moment, and in any case the bundle was signed
as a whole by the pinned identity. A session is never replaced, it only moves on by
encrypting and decrypting.
-/

namespace SecureMessenger

open Fallible Machine

variable {P : Primitives} {L : Olm P}

deriving instance DecidableEq for VerifiedPeerPreKey

/-- The signed content of a verified bundle. -/
def VerifiedPeerPreKey.statement (peer : VerifiedPeerPreKey P) : Statement :=
  .peerPrekey peer.signingIdentity.bytes peer.curveIdentity peer.oneTimeKey peer.validUntil

/-- The bundle a call would establish a session with, and the time of the call. -/
def ClientCall.establishes : ClientCall P → Option (VerifiedPeerPreKey P × UInt64)
  | .startOutboundSession peer now _ => some (peer, now)
  | .openInitial _ expectedSender now => some (expectedSender, now)
  | _ => none

/-- A session that came about by encrypting and decrypting with an earlier one. -/
inductive Olm.Ratchets (L : Olm P) (session : L.Session) : L.Session → Prop
  | here : Ratchets L session session
  | encrypt {later : L.Session} (plaintext entropy : Bytes) (earlier : Ratchets L session later) :
      Ratchets L session (L.encrypt later plaintext entropy).2
  | decrypt {later : L.Session} (message : OlmMessage L.PreKeyMessage L.NormalMessage)
      (earlier : Ratchets L session later) :
      Ratchets L session (L.decrypt (L.sessionFromPickle (L.pickleSession later)) message).2

namespace OlmClient

/-- What a call does to the session: nothing, establish it where there is none, or take
one step of the ratchet. -/
inductive Moves (c : OlmClient L) : ClientCall P → Option L.Session → Prop
  | stays (call : ClientCall P) : Moves c call c.session
  | starts (peer : VerifiedPeerPreKey P) (now : UInt64) (entropy : Bytes) (session : L.Session)
      (absent : c.session = none) (valid : now < peer.validUntil) :
      Moves c (.startOutboundSession peer now entropy) (some session)
  | accepts (envelope : VerifiedEnvelope) (expectedSender : VerifiedPeerPreKey P) (now : UInt64)
      (session : L.Session) (absent : c.session = none) :
      Moves c (.openInitial envelope expectedSender now) (some session)
  | encrypts (messageId : MessageId) (body : String) (sentAt : UInt64) (entropy plaintext : Bytes)
      (session : L.Session) (present : c.session = some session) :
      Moves c (.sealMessage messageId body sentAt entropy)
        (some (L.encrypt session plaintext entropy).2)
  | decrypts (envelope : VerifiedEnvelope) (now : UInt64)
      (message : OlmMessage L.PreKeyMessage L.NormalMessage) (session : L.Session)
      (present : c.session = some session) :
      Moves c (.openMessage envelope now)
        (some (L.decrypt (L.sessionFromPickle (L.pickleSession session)) message).2)

variable {c next : OlmClient L}

theorem stageOutbound_moves {peer : VerifiedPeerPreKey P} {now : UInt64} {entropy : Bytes}
    {u : Unit} (staged : c.stageOutbound peer now entropy = .ok (u, next)) :
    c.Moves (.startOutboundSession peer now entropy) next.session := by
  obtain ⟨absent, valid, session, rfl⟩ := stageOutbound_spec staged
  exact .starts peer now entropy session absent valid

theorem stageInitial_moves {envelope : VerifiedEnvelope} {expectedSender : VerifiedPeerPreKey P}
    {now : UInt64} {opened : OpenedMessage}
    (staged : c.stageInitial envelope expectedSender now = .ok (opened, next)) :
    c.Moves (.openInitial envelope expectedSender now) next.session := by
  obtain ⟨_, session, _, _, _, absent, _, _, _, _, _, rfl⟩ := stageInitial_spec staged
  exact .accepts envelope expectedSender now session absent

theorem stageMessage_moves {envelope : VerifiedEnvelope} {now : UInt64} {opened : OpenedMessage}
    (staged : c.stageMessage envelope now = .ok (opened, next)) :
    c.Moves (.openMessage envelope now) next.session := by
  obtain ⟨message, session, _, _, _, _, _, present, decrypted, _, _, rfl⟩ :=
    stageMessage_spec staged
  have moved := Moves.decrypts (c := c) envelope now message session present
  rwa [decrypted] at moved

theorem sealMessage_moves (c : OlmClient L) (messageId : MessageId) (body : String)
    (sentAt : UInt64) (entropy : Bytes) :
    c.Moves (.sealMessage messageId body sentAt entropy)
      (c.sealMessage messageId body sentAt entropy).2.session := by
  simp only [sealMessage]
  split
  · exact .stays _
  · next plaintext _ =>
    split
    · exact .stays _
    · next session present =>
      -- However sealing ends, the session is the one that encrypting leaves.
      have moved := Moves.encrypts messageId body sentAt entropy plaintext session present
      split
      · next advanced encrypted =>
        rwa [encrypted] at moved
      · next advanced encrypted =>
        rw [encrypted] at moved
        split <;> exact moved

theorem step_moves (c : OlmClient L) (call : ClientCall P) :
    c.Moves call (c.step call).2.session := by
  cases call with
  | prekeyBundle validUntil entropy =>
      have same : (c.prekeyBundle validUntil entropy).2.session = c.session := by
        simp only [prekeyBundle]
        split <;> rfl
      have stays := Moves.stays (c := c) (.prekeyBundle validUntil entropy)
      rwa [← same] at stays
  | startOutboundSession peer now entropy =>
      exact settle_keeps (fun next => c.Moves _ next.session) (.stays _)
        fun _ _ staged => stageOutbound_moves staged
  | sealMessage messageId body sentAt entropy =>
      exact c.sealMessage_moves messageId body sentAt entropy
  | openInitial envelope expectedSender now =>
      exact settle_keeps (fun next => c.Moves _ next.session) (.stays _)
        fun _ _ staged => stageInitial_moves staged
  | openMessage envelope now =>
      exact settle_keeps (fun next => c.Moves _ next.session) (.stays _)
        fun _ _ staged => stageMessage_moves staged

/-- A call that brings a session uses a bundle, and one that is still valid unless it
opens a first packet. -/
theorem Moves.of_created {call : ClientCall P} {session : L.Session}
    (moves : c.Moves call (some session)) (absent : c.session = none) :
    ∃ peer now, call.establishes = some (peer, now) ∧
      (now < peer.validUntil ∨ ∃ envelope, call = .openInitial envelope peer now) := by
  generalize result : some session = moved at moves
  cases moves with
  | stays =>
      rw [absent] at result
      cases result
  | starts peer now entropy session _ valid => exact ⟨peer, now, rfl, .inl valid⟩
  | accepts envelope expectedSender now => exact ⟨expectedSender, now, rfl, .inr ⟨envelope, rfl⟩⟩
  | encrypts _ _ _ _ _ _ present | decrypts _ _ _ _ present =>
      rw [absent] at present
      cases present

/-- A session that is there moves on. -/
theorem Moves.of_present {call : ClientCall P} {moved : Option L.Session}
    {session current : L.Session} (moves : c.Moves call moved) (present : c.session = some current)
    (ratchets : L.Ratchets session current) :
    ∃ later, moved = some later ∧ L.Ratchets session later := by
  cases moves with
  | stays => exact ⟨current, present, ratchets⟩
  | starts _ _ _ _ absent | accepts _ _ _ _ absent =>
      rw [present] at absent
      cases absent
  | encrypts _ _ _ entropy plaintext session' present' =>
      cases present.symm.trans present'
      exact ⟨_, rfl, ratchets.encrypt plaintext entropy⟩
  | decrypts _ _ message session' present' =>
      cases present.symm.trans present'
      exact ⟨_, rfl, ratchets.decrypt message⟩

end OlmClient

/-- A client together with the bundles that were verified for it, each with the identity
it was verified against. -/
structure Endpoint (L : Olm P) where
  client : OlmClient L
  verified : List (Ed25519PublicKey P × VerifiedPeerPreKey P)

/-- Anybody signs any statement; bundles from anywhere are verified at any time. -/
inductive EndpointEvent (P : Primitives)
  | sign (key : Ed25519PublicKey P) (statement : Statement)
  | verify (bundle : PeerPreKey P) (pinnedSigningIdentity : Ed25519PublicKey P) (now : UInt64)
  | call (call : ClientCall P)

inductive EndpointReply (P : Primitives)
  | verified (result : Except LabError (VerifiedPeerPreKey P))
  | called (reply : ClientReply P)
  | silent

namespace Endpoint

variable {e : Endpoint L} {call : ClientCall P}

def new (account : L.Account) (conversationId : ConversationId) : Endpoint L :=
  ⟨.new account conversationId, []⟩

/-- A verified bundle can only be had by verifying one. -/
def Holds (e : Endpoint L) (call : ClientCall P) : Prop :=
  ∀ used ∈ call.establishes, used.1 ∈ e.verified.map Prod.snd

instance (e : Endpoint L) (call : ClientCall P) : Decidable (e.Holds call) :=
  inferInstanceAs (Decidable (∀ used ∈ call.establishes, used.1 ∈ e.verified.map Prod.snd))

def step (e : Endpoint L) : EndpointEvent P → EndpointReply P × Endpoint L
  | .sign _ _ => (.silent, e)
  | .verify bundle pinnedSigningIdentity now =>
      match bundle.verify pinnedSigningIdentity now with
      | .error error => (.verified (.error error), e)
      | .ok peer =>
          (.verified (.ok peer),
            { e with verified := e.verified ++ [(pinnedSigningIdentity, peer)] })
  | .call call =>
      if e.Holds call then
        (.called (e.client.step call).1, { e with client := (e.client.step call).2 })
      else (.silent, e)

/-- What an event signs; the client signs the bundles it exports. -/
def signs (e : Endpoint L) : EndpointEvent P → Option (Ed25519PublicKey P × Statement)
  | .sign key statement => some (key, statement)
  | .call (.prekeyBundle validUntil entropy) =>
      (e.client.prekeyBundle validUntil entropy).1.toOption.map fun bundle =>
        (bundle.signingIdentity, bundle.statement)
  | _ => none

def after (start : Endpoint L) (events : List (EndpointEvent P)) : Endpoint L :=
  run step start events

def ledger (start : Endpoint L) (events : List (EndpointEvent P)) : Ledger P :=
  collect step signs start events

/-- Bundles are presented for verification. -/
def signing (start : Endpoint L) : Signing P (EndpointEvent P) where
  ledger := ledger start
  presented
    | .verify bundle _ _ => some (bundle.statement, bundle.signature)
    | _ => none
  grows before later entry member := by
    rw [ledger, collect_append]
    exact List.mem_append_left _ member

/-- Each session of a run comes from a bundle that is valid at that time and that was
signed as a whole by whatever identity it was verified against, and no session is
replaced. -/
structure SessionsFromBundles (start : Endpoint L) (events : List (EndpointEvent P)) : Prop where
  created : ∀ before event later, events = before ++ event :: later →
    (start.after before).client.session = none →
    (start.after (before ++ [event])).client.session ≠ none →
    ∃ call peer now, event = .call call ∧ call.establishes = some (peer, now) ∧
      now < peer.validUntil ∧ (∃ pinned, (pinned, peer) ∈ (start.after before).verified) ∧
      ∀ pinned, (pinned, peer) ∈ (start.after before).verified →
        (pinned, peer.statement) ∈ start.ledger before
  kept : ∀ before middle later session, events = before ++ middle ++ later →
    (start.after before).client.session = some session →
    ∃ moved, (start.after (before ++ middle)).client.session = some moved ∧
      L.Ratchets session moved

/-- Only a call of the client can touch its session. -/
theorem client_step (e : Endpoint L) (event : EndpointEvent P) :
    (e.step event).2.client = e.client ∨
      ∃ call, event = .call call ∧ e.Holds call ∧
        (e.step event).2.client = (e.client.step call).2 := by
  cases event with
  | sign => exact .inl rfl
  | verify bundle pinned now =>
      simp only [step]
      split <;> exact .inl rfl
  | call call =>
      simp only [step]
      split
      · next holds => exact .inr ⟨call, rfl, holds, rfl⟩
      · exact .inl rfl

/-- The event that brings a session uses a verified bundle, and one that is still valid
unless it opens a first packet. -/
theorem created_step {event : EndpointEvent P} (absent : e.client.session = none)
    (present : (e.step event).2.client.session ≠ none) :
    ∃ call peer now, event = .call call ∧ call.establishes = some (peer, now) ∧
      peer ∈ e.verified.map Prod.snd ∧
      (now < peer.validUntil ∨ ∃ envelope, call = .openInitial envelope peer now) := by
  obtain same | ⟨call, rfl, holds, same⟩ := e.client_step event
  · rw [same] at present
    exact absurd absent present
  · rw [same] at present
    obtain ⟨session, created⟩ := Option.ne_none_iff_exists'.mp present
    have moves := e.client.step_moves call
    rw [created] at moves
    obtain ⟨peer, now, establishes, valid⟩ := moves.of_created absent
    exact ⟨call, peer, now, rfl, establishes, holds _ establishes, valid⟩

/-- A bundle that verifies is presented with a signature of the pinned identity. -/
theorem verify_presents {bundle : PeerPreKey P} {pinned : Ed25519PublicKey P} {now : UInt64}
    {peer : VerifiedPeerPreKey P} (ok : bundle.verify pinned now = .ok peer) :
    pinned.verify (bundle.statement.signingBytes P) bundle.signature = true ∧
      peer.statement = bundle.statement := by
  simp only [PeerPreKey.verify, bind_eq_ok, rejectIf_eq_ok, Bool.not_eq_false,
    Except.ok.injEq] at ok
  obtain ⟨_, _, _, verified, rfl⟩ := ok
  exact ⟨verified, rfl⟩

theorem mem_verified_step {entry : Ed25519PublicKey P × VerifiedPeerPreKey P}
    {event : EndpointEvent P} (member : entry ∈ (e.step event).2.verified) :
    entry ∈ e.verified ∨ ∃ bundle now, event = .verify bundle entry.1 now ∧
      bundle.verify entry.1 now = .ok entry.2 := by
  cases event with
  | sign => exact .inl member
  | verify bundle pinned now =>
      simp only [step] at member
      split at member
      · exact .inl member
      · next peer verified =>
        obtain old | new := List.mem_append.mp member
        · exact .inl old
        · rw [List.mem_singleton.mp new]
          exact .inr ⟨bundle, now, rfl, verified⟩
  | call call =>
      simp only [step] at member
      split at member <;> exact .inl member

variable {start : Endpoint L} {events before later : List (EndpointEvent P)}

/-- With ideal signatures a verified bundle was signed by its pinned identity. -/
theorem signed_of_verified (unverified : start.verified = [])
    (unforgeable : start.signing.Unforgeable events) (split : events = before ++ later)
    {pinned : Ed25519PublicKey P} {peer : VerifiedPeerPreKey P}
    (member : (pinned, peer) ∈ (start.after before).verified) :
    (pinned, peer.statement) ∈ start.ledger before := by
  induction before using List.reverseRecOn generalizing later with
  | nil =>
      have none : (pinned, peer) ∈ start.verified := member
      rw [unverified] at none
      cases none
  | append_singleton before event ih =>
      rw [List.append_assoc] at split
      refine start.signing.grows before [event] _ ?_
      rw [after, run_concat] at member
      obtain old | ⟨bundle, now, rfl, verified⟩ := mem_verified_step member
      · exact ih split old
      · obtain ⟨signature, same⟩ := verify_presents verified
        rw [same]
        exact (unforgeable before _ later split _ rfl pinned signature).mem_of_plain rfl

/-- A session once there is only moved on, through any run. -/
theorem session_kept {session : L.Session} (present : (start.after before).client.session =
    some session) (middle : List (EndpointEvent P)) :
    ∃ moved, (start.after (before ++ middle)).client.session = some moved ∧
      L.Ratchets session moved := by
  rw [after, run_append]
  refine invariant_run (fun e : Endpoint L => ∃ moved, e.client.session = some moved ∧
    L.Ratchets session moved) ?_ ⟨session, present, .here⟩ middle
  rintro e event ⟨moved, present, ratchets⟩
  obtain same | ⟨call, _, _, same⟩ := e.client_step event
  · rw [same]
    exact ⟨moved, present, ratchets⟩
  · rw [same]
    exact (e.client.step_moves call).of_present present ratchets

end Endpoint

open Endpoint

/-- If no first packet is opened under an expired bundle, every session of a run comes
from an authentic bundle that is valid at that moment. -/
theorem sessions_from_valid_bundles (account : L.Account) (conversationId : ConversationId)
    (events : List (EndpointEvent P))
    (unforgeable : (Endpoint.new account conversationId).signing.Unforgeable events)
    (unexpired : ∀ envelope expectedSender now,
      .call (.openInitial envelope expectedSender now) ∈ events → now < expectedSender.validUntil) :
    SessionsFromBundles (Endpoint.new account conversationId) events where
  kept before middle later session _ present := session_kept present middle
  created := by
    intro before event later split absent present
    rw [after, run_concat] at present
    obtain ⟨call, peer, now, rfl, establishes, verified, valid⟩ := created_step absent present
    refine ⟨call, peer, now, rfl, establishes, ?_, ?_, ?_⟩
    · obtain valid | ⟨envelope, rfl⟩ := valid
      · exact valid
      · exact unexpired envelope peer now (by rw [split]; simp)
    · obtain ⟨⟨pinned, peer⟩, member, rfl⟩ := List.mem_map.mp verified
      exact ⟨pinned, member⟩
    · intro pinned member
      exact signed_of_verified rfl unforgeable split member

namespace Retained

def keypair : Ed25519Keypair .symbolic := .symbolic (.fill 32 1)
def conversation : ConversationId := .fill 16 7
def messageId : MessageId := .fill 16 9

def statement : Statement := .peerPrekey keypair.publicKey.bytes (.fill 32 2) (.fill 32 3) 200

def bundle : PeerPreKey .symbolic where
  signingIdentity := keypair.publicKey
  curveIdentity := .fill 32 2
  oneTimeKey := .fill 32 3
  validUntil := 200
  signature := keypair.sign (statement.signingBytes .symbolic)

/-- The bundle, once verified. -/
def peer : VerifiedPeerPreKey .symbolic := ⟨keypair.publicKey, .fill 32 2, .fill 32 3, 200⟩

def envelope : VerifiedEnvelope where
  queueId := .fill 32 4
  messageId := messageId
  packet := 0 :: (conversation.toList ++ messageId.toList)
  expiresAt := 1000

def start : Endpoint Olm.symbolic := .new () conversation

/-- The bundle is signed, and verified while it is valid. -/
def before : List (EndpointEvent .symbolic) :=
  [.sign keypair.publicKey statement, .verify bundle keypair.publicKey 100]

/-- The first packet is opened at some later time. -/
def initial (now : UInt64) : EndpointEvent .symbolic := .call (.openInitial envelope peer now)

theorem unforgeable_events (now : UInt64) :
    start.signing.Unforgeable (before ++ [initial now]) :=
  Signing.unforgeable_nil (S := start.signing)
    |>.quiet (.sign keypair.publicKey statement) rfl
    |>.symbolic (.verify bundle keypair.publicKey 100) rfl (by decide +kernel)
    |>.quiet (initial now) rfl

end Retained

open Retained in
theorem sessions_from_valid_bundles_prompt :
    (start.after before).client.session.isNone = true ∧
    (start.after (before ++ [initial 150])).client.session.isSome = true ∧
    SessionsFromBundles start (before ++ [initial 150]) := by
  refine ⟨by decide +kernel, by decide +kernel, ?_⟩
  refine sessions_from_valid_bundles (L := Olm.symbolic) () conversation _
    (unforgeable_events 150) ?_
  intro envelope expectedSender now member
  simp only [before, initial, List.cons_append, List.nil_append, List.mem_cons, reduceCtorEq,
    EndpointEvent.call.injEq, ClientCall.openInitial.injEq, List.not_mem_nil, or_false,
    false_or] at member
  obtain ⟨_, rfl, rfl⟩ := member
  decide

open Retained in
/-- A bundle valid until 200 is verified at 100 and kept. At 300 starting a session with
it is refused, and opening a first packet under it establishes one. -/
theorem expired_bundle_establishes_session :
    start.signing.Unforgeable (before ++ [initial 300]) ∧
    ((start.after before).client.startOutboundSession peer 300 []).1 =
      .error .peerVerificationFailed ∧
    (start.after (before ++ [initial 300])).client.session.isSome = true ∧
    ¬ SessionsFromBundles start (before ++ [initial 300]) := by
  have absent : (start.after before).client.session.isNone = true := by decide +kernel
  have present : (start.after (before ++ [initial 300])).client.session.isSome = true := by
    decide +kernel
  refine ⟨unforgeable_events 300, by decide +kernel, present, ?_⟩
  intro sessions
  obtain ⟨call, used, now, same, establishes, valid, _⟩ :=
    sessions.created before (initial 300) [] rfl (Option.isNone_iff_eq_none.mp absent)
      (Option.isSome_iff_ne_none.mp present)
  cases same
  cases establishes
  exact absurd valid (by decide)

end SecureMessenger
