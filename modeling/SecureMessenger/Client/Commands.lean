import SecureMessenger.Client.Olm

/-!
# The signed commands of the protocol

Five requests to the relay and the contact bundle of a client are all that any key
of the protocol signs. Each assembles its own signing bytes. The encoding writes
neither the number of parts nor any separator, one encoding may begin like another,
and several commands have fields of the same lengths; yet the bytes determine the
kind of the command and all its fields. Only the packet of a send request enters
through its digest.
-/

namespace SecureMessenger

variable {P : Primitives}

/-- Whatever carries a signature. -/
inductive Command (P : Primitives)
  | register (request : MailboxRegistration P)
  | send (request : SendRequest)
  | fetch (request : FetchRequest)
  | ack (request : AckRequest)
  | deleteMailbox (request : DeleteMailboxRequest)
  | contactBundle (bundle : PeerPreKey P)

namespace Command

def signingBytes : Command P → Bytes
  | register request => request.signingBytes
  | send request => request.signingBytes P
  | fetch request => request.signingBytes
  | ack request => request.signingBytes
  | deleteMailbox request => request.signingBytes
  | contactBundle bundle => bundle.signingBytes

/-- The signed fields. -/
def statement : Command P → Statement
  | register request => request.statement
  | send request => request.statement
  | fetch request => request.statement
  | ack request => request.statement
  | deleteMailbox request => request.statement
  | contactBundle bundle => bundle.statement

theorem signingBytes_eq (command : Command P) :
    command.signingBytes = command.statement.signingBytes P := by
  cases command with
  | register request => exact request.signingBytes_eq
  | send request => exact request.signingBytes_eq
  | fetch request => exact request.signingBytes_eq
  | ack request => exact request.signingBytes_eq
  | deleteMailbox request => exact request.signingBytes_eq
  | contactBundle bundle => rfl

end Command

namespace Statement

theorem SameFields.kind {st st' : Statement} (same : st.SameFields P st') : st.kind = st'.kind := by
  cases st <;> cases st' <;> first | rfl | cases same

/-- Equal fields are signed alike. -/
theorem SameFields.signingBytes {st st' : Statement} (same : st.SameFields P st') :
    st.signingBytes P = st'.signingBytes P := by
  cases st with
  | send queueId messageId packet expiresAt =>
      cases st' with
      | send queueId' messageId' packet' expiresAt' =>
          obtain ⟨rfl, rfl, samePacket, rfl⟩ := same
          simp only [Statement.signingBytes, Statement.kind, parts, samePacket]
      | _ => cases same
  | _ =>
      cases st' <;> cases same
      rfl

end Statement

/-- The encoding of commands is injective. Encodings are equal only if actions and parts
are. Two signed commands have the same signing bytes exactly if they are of one kind
and agree in all signed fields, the packet of a send request up to its digest. -/
theorem signing_bytes_determine_command :
    (∀ (a b : Bytes) (ps qs : List Bytes), a.length < 2 ^ 64 → b.length < 2 ^ 64 →
      (∀ p ∈ ps, p.length < 2 ^ 64) → (∀ q ∈ qs, q.length < 2 ^ 64) →
      canonical a ps = canonical b qs → a = b ∧ ps = qs) ∧
    ∀ command command' : Command P, command.signingBytes = command'.signingBytes ↔
      command.statement.kind = command'.statement.kind ∧
        command.statement.SameFields P command'.statement := by
  refine ⟨fun a b ps qs shortA shortB shortPs shortQs same =>
    canonical_inj shortA shortPs shortB shortQs same, fun command command' => ?_⟩
  rw [command.signingBytes_eq, command'.signingBytes_eq]
  constructor
  · intro same
    have fields := Statement.sameFields_of_signingBytes same
    exact ⟨fields.kind, fields⟩
  · rintro ⟨_, fields⟩
    exact fields.signingBytes

/-- A part that imitates a length does not pass for two empty parts. -/
theorem signing_bytes_determine_command_imitation :
    (canonical [] [List.replicate 8 0]).length = (canonical [] [[], []]).length ∧
      canonical [] [List.replicate 8 0] ≠ canonical [] [[], []] := by
  refine ⟨by decide, fun same => ?_⟩
  have parts := (signing_bytes_determine_command (P := .symbolic)).1 [] [] [List.replicate 8 0]
    [[], []] (by decide) (by decide) (by decide) (by decide) same
  exact absurd parts.2 (by decide)

end SecureMessenger
