import SecureMessenger.Capability.Encoding

/-!
# Ideal signatures

A theorem about signatures speaks of a run: some of its events sign statements, and
some present a statement with a signature to whoever verifies it. Signatures are
ideal in a run when none of them is forged: a presented signature that verifies
under some key was made before with that key, for exactly those bytes. Nothing is
said about who presents it or how often.

Since the bytes of a statement determine its fields, up to the digest of a packet, a
presented statement that verifies was then signed as such.
-/

namespace SecureMessenger

variable {P : Primitives} {ε : Type*}

/-- The statements signed so far, each with the key of its signer. -/
abbrev Ledger (P : Primitives) := List (Ed25519PublicKey P × Statement)

namespace Ledger

/-- The holder of the key signed exactly these bytes. -/
def Covers (ledger : Ledger P) (key : Ed25519PublicKey P) (message : Bytes) : Prop :=
  ∃ st, (key, st) ∈ ledger ∧ st.signingBytes P = message

/-- The packets of the signed send statements. -/
def Packet (ledger : Ledger P) (packet : Bytes) : Prop :=
  ∃ entry ∈ ledger, packet ∈ entry.2.packet?

/-- Whoever signed the bytes of a statement signed that statement. -/
theorem Covers.mem {ledger : Ledger P} {key : Ed25519PublicKey P} {st : Statement}
    {packets : Bytes → Prop} (covered : ledger.Covers key (st.signingBytes P))
    (collisionFree : CollisionFree P packets) (signed : ∀ p, ledger.Packet p → packets p)
    (own : ∀ p ∈ st.packet?, packets p) : (key, st) ∈ ledger := by
  obtain ⟨st', member, same⟩ := covered
  have signed' : ∀ p ∈ st'.packet?, packets p := fun p has => signed p ⟨_, member, has⟩
  rwa [← Statement.eq_of_signingBytes collisionFree signed' own same]

/-- A statement without a packet has no digest that could collide. -/
theorem Covers.mem_of_plain {ledger : Ledger P} {key : Ed25519PublicKey P} {st : Statement}
    (covered : ledger.Covers key (st.signingBytes P)) (plain : st.packet? = none) :
    (key, st) ∈ ledger := by
  obtain ⟨st', member, same⟩ := covered
  have fields := Statement.sameFields_of_signingBytes same
  have equal : st' = st := by
    cases st with
    | send => cases plain
    | _ => cases st' <;> exact fields
  rwa [← equal]

end Ledger

/-- How the events of a run sign and present. A ledger only grows. -/
structure Signing (P : Primitives) (ε : Type*) where
  ledger : List ε → Ledger P
  presented : ε → Option (Statement × Ed25519Signature)
  grows : ∀ before later entry, entry ∈ ledger before → entry ∈ ledger (before ++ later)

namespace Signing

variable {S : Signing P ε} {events before later : List ε} {event : ε}

/-- No signature of the run is forged. -/
def Unforgeable (S : Signing P ε) (events : List ε) : Prop :=
  ∀ before event later, events = before ++ event :: later →
    ∀ presented ∈ S.presented event, ∀ key : Ed25519PublicKey P,
      key.verify (presented.1.signingBytes P) presented.2 = true →
        (S.ledger before).Covers key (presented.1.signingBytes P)

/-- The packets that were signed or presented in a run. -/
def Packet (S : Signing P ε) (events : List ε) (packet : Bytes) : Prop :=
  (S.ledger events).Packet packet ∨
    ∃ event ∈ events, ∃ presented ∈ S.presented event, packet ∈ presented.1.packet?

/-- With ideal signatures and no digest collision, a presented statement that
verifies was signed as such. -/
theorem Unforgeable.signed (unforgeable : S.Unforgeable events)
    (collisionFree : CollisionFree P (S.Packet events)) (split : events = before ++ event :: later)
    {presented : Statement × Ed25519Signature} (has : presented ∈ S.presented event)
    {key : Ed25519PublicKey P}
    (verified : key.verify (presented.1.signingBytes P) presented.2 = true) :
    (key, presented.1) ∈ S.ledger before := by
  refine (unforgeable before event later split presented has key verified).mem collisionFree ?_ ?_
  · rintro packet ⟨entry, member, packet_eq⟩
    exact .inl ⟨entry, split ▸ S.grows before (event :: later) entry member, packet_eq⟩
  · intro packet packet_eq
    exact .inr ⟨event, by rw [split]; simp, presented, has, packet_eq⟩

theorem unforgeable_nil : S.Unforgeable [] := by
  intro before event later split
  simp at split

/-- A run is extended by one event at a time. -/
theorem Unforgeable.concat (unforgeable : S.Unforgeable events)
    (backed : ∀ presented ∈ S.presented event, ∀ key : Ed25519PublicKey P,
      key.verify (presented.1.signingBytes P) presented.2 = true →
        (S.ledger events).Covers key (presented.1.signingBytes P)) :
    S.Unforgeable (events ++ [event]) := by
  intro before event' later split
  obtain rfl | ⟨later, last, rfl⟩ := List.eq_nil_or_concat later
  · obtain ⟨rfl, same⟩ := List.append_inj' split rfl
    obtain rfl := List.singleton_inj.mp same
    exact backed
  · rw [List.concat_eq_append, ← List.cons_append, ← List.append_assoc] at split
    exact unforgeable before event' later (List.append_inj' split rfl).1

/-- An event that presents nothing needs no backing. -/
theorem Unforgeable.quiet (unforgeable : S.Unforgeable events)
    (event : ε) (silent : S.presented event = none) : S.Unforgeable (events ++ [event]) := by
  refine unforgeable.concat ?_
  rw [silent]
  rintro _ ⟨⟩

/-- A symbolic signature is backed by the statement its signer made. -/
theorem Unforgeable.symbolic {S : Signing .symbolic ε} (unforgeable : S.Unforgeable events)
    (event : ε) {statement : Statement} {secret : FixedBytes 32}
    (presents : S.presented event = some (statement,
      (Ed25519Keypair.symbolic secret).sign (statement.signingBytes .symbolic)))
    (signed : ((Ed25519Keypair.symbolic secret).publicKey, statement) ∈ S.ledger events) :
    S.Unforgeable (events ++ [event]) := by
  refine unforgeable.concat ?_
  rw [presents]
  rintro _ ⟨rfl⟩ key verified
  rw [Ed25519Keypair.symbolic_verify verified]
  exact ⟨statement, signed, rfl⟩

/-- In a run with one packet there is nothing to collide. -/
theorem collisionFree_of_single (packet : Bytes)
    (signed : ∀ entry ∈ S.ledger events, ∀ p ∈ entry.2.packet?, p = packet)
    (presented : ∀ event ∈ events, ∀ presentation ∈ S.presented event,
      ∀ p ∈ presentation.1.packet?, p = packet) : CollisionFree P (S.Packet events) := by
  have only : ∀ p, S.Packet events p → p = packet := by
    rintro p (⟨entry, member, has⟩ | ⟨event, member, presentation, presents, has⟩)
    · exact signed entry member p has
    · exact presented event member presentation presents p has
  intro a b isPacket isPacket' _
  rw [only a isPacket, only b isPacket']

end Signing

end SecureMessenger
