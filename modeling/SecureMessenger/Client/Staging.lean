import SecureMessenger.Client.Network

/-!
# Rejected envelopes leave no trace

Opening a packet works on a copy of the account or of the session. The checks of the
decrypted payload come after the copy was advanced: a one-time key may be consumed
and the ratchet moved before the conversation, the message id or the duplicate check
fails. Since the copy is installed last, a rejected call leaves the client as it was;
and if a copy behaves like its original, an accepted call leaves what decrypting in
place would have left.

A rejected call can therefore be taken out of any run without a change to the other
results.
-/

namespace SecureMessenger

open Fallible Machine

variable {P : Primitives} {L : Olm P}

/-- One call of the client's interface, with the random bytes it draws. -/
inductive ClientCall (P : Primitives)
  | prekeyBundle (validUntil : UInt64) (entropy : Bytes)
  | startOutboundSession (peer : VerifiedPeerPreKey P) (now : UInt64) (entropy : Bytes)
  | sealMessage (messageId : MessageId) (body : String) (sentAt : UInt64) (entropy : Bytes)
  | openInitial (envelope : VerifiedEnvelope) (expectedSender : VerifiedPeerPreKey P)
      (now : UInt64)
  | openMessage (envelope : VerifiedEnvelope) (now : UInt64)

inductive ClientAnswer (P : Primitives)
  | bundle (bundle : PeerPreKey P)
  | started
  | packet (messageId : MessageId) (packet : EncryptedPacket)
  | opened (opened : OpenedMessage)

abbrev ClientReply (P : Primitives) := Except LabError (ClientAnswer P)

namespace OlmClient

def step (c : OlmClient L) : ClientCall P → ClientReply P × OlmClient L
  | .prekeyBundle validUntil entropy => (c.prekeyBundle validUntil entropy).map (·.map .bundle) id
  | .startOutboundSession peer now entropy =>
      (c.startOutboundSession peer now entropy).map (·.map fun _ => .started) id
  | .sealMessage messageId body sentAt entropy =>
      (c.sealMessage messageId body sentAt entropy).map
        (·.map fun result => .packet result.1 result.2) id
  | .openInitial envelope expectedSender now =>
      (c.openInitial envelope expectedSender now).map (·.map .opened) id
  | .openMessage envelope now => (c.openMessage envelope now).map (·.map .opened) id

/-- A call that opens a packet or starts a session and was refused. Sealing and exporting
a bundle are not staged: they may change the client before they fail. -/
def rejected : ClientCall P × ClientReply P → Bool
  | (.startOutboundSession .., .error _) => true
  | (.openInitial .., .error _) => true
  | (.openMessage .., .error _) => true
  | _ => false

theorem step_of_rejected (c : OlmClient L) (call : ClientCall P)
    (refused : rejected (call, (c.step call).1) = true) : (c.step call).2 = c := by
  have settled : ∀ {α : Type} (wrap : α → ClientAnswer P)
      (staged : Except LabError (α × OlmClient L)),
      (∃ e, (c.settle staged).1.map wrap = .error e) → (c.settle staged).2 = c := by
    rintro α wrap staged ⟨e, failed⟩
    cases staged with
    | error e => rfl
    | ok result => cases failed
  have failed : ∃ e, (c.step call).1 = .error e := by
    cases reply : (c.step call).1 with
    | error e => exact ⟨e, rfl⟩
    | ok answer =>
        rw [reply] at refused
        cases call <;> cases refused
  cases call with
  | prekeyBundle | sealMessage => cases refused
  | startOutboundSession peer now entropy =>
      exact settled _ (c.stageOutbound peer now entropy) failed
  | openInitial envelope sender now => exact settled _ (c.stageInitial envelope sender now) failed
  | openMessage envelope now => exact settled _ (c.stageMessage envelope now) failed

/-- What decrypting the first packet with the account itself leaves. -/
def decryptInitial (c : OlmClient L) (envelope : VerifiedEnvelope)
    (expectedSender : VerifiedPeerPreKey P) : L.Account × Option L.Session :=
  match L.decodeMessage envelope.packet with
  | some (.preKey preKey) =>
      let (inbound, account) :=
        L.createInboundSession c.account expectedSender.curveIdentity preKey
      (account, inbound.map Prod.fst)
  | _ => (c.account, c.session)

/-- What decrypting a packet with the session itself leaves. -/
def decryptMessage (c : OlmClient L) (envelope : VerifiedEnvelope) :
    L.Account × Option L.Session :=
  match L.decodeMessage envelope.packet, c.session with
  | some olmMessage, some session => (c.account, some (L.decrypt session olmMessage).2)
  | _, _ => (c.account, c.session)

/-- The client after opening: account and session as decrypting in place leaves them, and
one more displayed message. -/
structure OpensInPlace (c : OlmClient L) (inPlace : L.Account × Option L.Session)
    (opened : OpenedMessage) (next : OlmClient L) : Prop where
  account : next.account = inPlace.1
  session : next.session = inPlace.2
  fresh : opened.message.messageId ∉ c.displayedMessages
  displayed : next.displayedMessages = insert opened.message.messageId c.displayedMessages

variable {c next : OlmClient L} {envelope : VerifiedEnvelope} {now : UInt64}
variable {opened : OpenedMessage}

/-- The answer of a staged call and the client after it: unchanged, or as opening in
place leaves it. -/
def Transparent (c : OlmClient L) (inPlace : L.Account × Option L.Session) :
    Except LabError OpenedMessage × OlmClient L → Prop
  | (.error _, next) => next = c
  | (.ok opened, next) => c.OpensInPlace inPlace opened next

theorem settle_transparent {inPlace : L.Account × Option L.Session}
    {staged : Except LabError (OpenedMessage × OlmClient L)}
    (opens : ∀ opened next, staged = .ok (opened, next) → c.OpensInPlace inPlace opened next) :
    c.Transparent inPlace (c.settle staged) := by
  cases staged with
  | error e => exact rfl
  | ok result => exact opens result.1 result.2 rfl

theorem stageInitial_inPlace (copies : ∀ account, L.fromPickle (L.pickle account) = account)
    {expectedSender : VerifiedPeerPreKey P}
    (staged : c.stageInitial envelope expectedSender now = .ok (opened, next)) :
    c.OpensInPlace (c.decryptInitial envelope expectedSender) opened next := by
  have accepts := stageInitial_accepts staged
  obtain ⟨preKey, session, plaintext, account, message, _, _, decoded, inbound, _, rfl, rfl⟩ :=
    stageInitial_spec staged
  rw [copies] at inbound
  have inPlace : c.decryptInitial envelope expectedSender = (account, some session) := by
    simp only [decryptInitial, decoded, inbound, Option.map_some]
  rw [inPlace]
  exact ⟨rfl, rfl, accepts.fresh, accepts.displayed⟩

theorem stageMessage_inPlace
    (copies : ∀ session, L.sessionFromPickle (L.pickleSession session) = session)
    (staged : c.stageMessage envelope now = .ok (opened, next)) :
    c.OpensInPlace (c.decryptMessage envelope) opened next := by
  have accepts := stageMessage_accepts staged
  obtain ⟨olmMessage, session, plaintext, moved, message, _, decoded, present, decrypted, _, rfl,
    rfl⟩ := stageMessage_spec staged
  rw [copies] at decrypted
  have inPlace : c.decryptMessage envelope = (c.account, some moved) := by
    simp only [decryptMessage, decoded, present, decrypted]
  rw [inPlace]
  exact ⟨rfl, rfl, accepts.fresh, accepts.displayed⟩

/-- The calls of a run that were not rejected. -/
def withoutRejected (c : OlmClient L) (calls : List (ClientCall P)) : List (ClientCall P) :=
  ((trace step c calls).filter fun entry => !rejected entry).map Prod.fst

/-- A rejected packet leaves the client alone, an accepted one leaves what decrypting in
place leaves, and the rejected calls of a run can be taken out of it. The results of the
other calls stay. -/
theorem rejected_calls_are_invisible
    (accounts : ∀ account, L.fromPickle (L.pickle account) = account)
    (sessions : ∀ session, L.sessionFromPickle (L.pickleSession session) = session) :
    (∀ (c : OlmClient L) envelope expectedSender now,
      c.Transparent (c.decryptInitial envelope expectedSender)
        (c.openInitial envelope expectedSender now)) ∧
    (∀ (c : OlmClient L) envelope now,
      c.Transparent (c.decryptMessage envelope) (c.openMessage envelope now)) ∧
    ∀ (c : OlmClient L) calls,
      trace step c (c.withoutRejected calls) =
        (trace step c calls).filter fun entry => !rejected entry := by
  refine ⟨fun c envelope sender now => ?_, fun c envelope now => ?_, fun c calls => ?_⟩
  · exact settle_transparent fun opened next staged => stageInitial_inPlace accounts staged
  · exact settle_transparent fun opened next staged => stageMessage_inPlace sessions staged
  · exact trace_filter rejected step_of_rejected c calls

end OlmClient

namespace Olm

/-- The symbolic Olm with an account that counts the one-time keys it has spent and a
session that counts the messages it has handled. -/
def counting : Olm .symbolic :=
  { symbolic with
    Account := Nat
    AccountPickle := Nat
    Session := Nat
    SessionPickle := Nat
    ed25519Key := fun _ => symbolic.ed25519Key ()
    curve25519Key := fun _ => symbolic.curve25519Key ()
    sign := fun _ message => symbolic.sign () message
    generateOneTimeKeys := fun spent _ _ => spent
    oneTimeKeys := fun _ => symbolic.oneTimeKeys ()
    markKeysAsPublished := id
    pickle := id
    fromPickle := id
    createOutboundSession := fun _ _ _ _ => some 0
    createInboundSession := fun spent _ message => (some (1, message), spent + 1)
    pickleSession := id
    sessionFromPickle := id
    encrypt := fun handled plaintext _ => (some (.normal plaintext), handled + 1)
    decrypt := fun handled message => ((symbolic.decrypt () message).1, handled + 1) }

end Olm

/-- The first packet and a later one are each preceded by one for another conversation.
Both of these are decrypted, on a copy, before they are rejected. -/
theorem rejected_calls_are_invisible_misdirected :
    let c : OlmClient Olm.counting := .new (0 : Nat) (.fill 16 7)
    let peer : VerifiedPeerPreKey .symbolic :=
      { signingIdentity := Olm.counting.ed25519Key (0 : Nat), curveIdentity := .fill 32 1
        oneTimeKey := .fill 32 2, validUntil := 200 }
    let envelope (kind conversation message : UInt8) : VerifiedEnvelope :=
      { queueId := .fill 32 3, messageId := .fill 16 message, expiresAt := 500
        packet := kind :: (List.replicate 16 conversation ++ List.replicate 16 message) }
    let calls : List (ClientCall .symbolic) :=
      [.openInitial (envelope 0 8 1) peer 100, .openInitial (envelope 0 7 1) peer 100,
        .openMessage (envelope 1 8 2) 101, .openMessage (envelope 1 7 2) 101,
        .sealMessage (.fill 16 9) "" 102 []]
    (trace OlmClient.step c calls).map OlmClient.rejected = [true, false, true, false, false] ∧
      (c.decryptInitial (envelope 0 8 1) peer).1 = (1 : Nat) ∧
      (run OlmClient.step c calls).account = (1 : Nat) ∧
      (run OlmClient.step c calls).session = some (3 : Nat) ∧
      trace OlmClient.step c (c.withoutRejected calls) =
        (trace OlmClient.step c calls).filter fun entry => !OlmClient.rejected entry :=
  ⟨by decide +kernel, rfl, rfl, rfl,
    (OlmClient.rejected_calls_are_invisible (fun _ => rfl) (fun _ => rfl)).2.2 _ _⟩

end SecureMessenger
