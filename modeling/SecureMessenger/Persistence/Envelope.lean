import SecureMessenger.Capability.Encoding

/-!
# The sealed client state

One snapshot of client state is sealed by an AEAD under the profile's data
encryption key. The associated data binds the profile, the generation and the
wrapped key, the last one through its hash. The cipher and the platform's key
protector are outside the crate; they enter as parameters without laws, and a
theorem that needs one names it.

The length checks of `sealEnvelope` and `openEnvelope` are written separately in
the source, and so they are here; `openEnvelope_sealEnvelope` relates them.
-/

namespace SecureMessenger

open Fallible Framing

/-- Profile identity and platform-key reference, held outside the state file. -/
@[ext] structure ProfileBinding where
  profileId : FixedBytes 16
  keyRef : FixedBytes 16
deriving DecidableEq

/-- Protection evidence reported by a platform adapter. -/
inductive ProtectionLevel
  | strongBox
  | trustedEnvironment
  | softwareBacked
  | indeterminate
deriving DecidableEq

abbrev Dek := FixedBytes 32
abbrev StateNonce := FixedBytes 24

/-- How the platform answers during one call of the store. A platform may answer
differently at the next call, so each call brings its own record. -/
structure StateKeyProtector where
  expectedBinding : Except LabError ProfileBinding
  protectionLevel : ProtectionLevel
  wrapDek : Dek → Except LabError Bytes
  unwrapDek : Bytes → Except LabError Dek

/-- The cipher, called with key, nonce, associated data and text. -/
structure Aead where
  encrypt : Dek → StateNonce → Bytes → Bytes → Option Bytes
  decrypt : Dek → StateNonce → Bytes → Bytes → Option Bytes

/-- Decryption undoes encryption. -/
def Aead.Correct (A : Aead) : Prop :=
  ∀ key nonce aad plaintext ciphertext, A.encrypt key nonce aad plaintext = some ciphertext →
    A.decrypt key nonce aad ciphertext = some plaintext

def envelopeVersion : Int := 1
def cryptoSuite : Int := 1
def stateSchemaVersion : Int := 1
def maxCiphertextBytes : Nat := 8 * 1024 * 1024
def maxPlaintextBytes : Nat := maxCiphertextBytes - 16
def maxWrappedDekBytes : Nat := 8192
def stateDomain : Bytes := ascii "secure-messenger-lab/client-state"
def vodozemacVersion : Bytes := ascii "0.10.0"

namespace Envelope

def validateHeader (generation : UInt64) (wrappedDek : Bytes) (plaintextLen : Nat) :
    Except LabError Unit :=
  rejectIf (generation = 0 ∨ generation.toNat ≥ 2 ^ 63 ∨ wrappedDek = [] ∨
    wrappedDek.length > maxWrappedDekBytes ∨ plaintextLen > maxPlaintextBytes) .storage

/-- The length is a 32-bit word; a longer part is an error. -/
def appendPart (encoded part : Bytes) : Except LabError Bytes := do
  rejectIf (¬ part.length < 2 ^ 32) .storage
  .ok (encoded ++ beBytes 4 part.length ++ part)

/-- The ten parts of the associated data. The three constants are signed words,
all of them positive. -/
def aadParts (P : Primitives) (binding : ProfileBinding) (generation : UInt64)
    (wrappedDek : Bytes) : List Bytes :=
  [stateDomain, beBytes 8 envelopeVersion.toNat, beBytes 8 cryptoSuite.toNat,
    binding.profileId.toList, toBeBytes generation, binding.keyRef.toList,
    (digest P wrappedDek).toList, protocolDomain, vodozemacVersion,
    beBytes 8 stateSchemaVersion.toNat]

def aad (P : Primitives) (binding : ProfileBinding) (generation : UInt64)
    (wrappedDek : Bytes) : Except LabError Bytes :=
  (aadParts P binding generation wrappedDek).foldlM appendPart []

end Envelope

open Envelope

/-- Seal one complete generation under a nonce the caller drew. -/
def sealEnvelope (A : Aead) (P : Primitives) (binding : ProfileBinding) (generation : UInt64)
    (wrappedDek : Bytes) (dek : Dek) (nonce : StateNonce) (plaintext : Bytes) :
    Except LabError Bytes := do
  validateHeader generation wrappedDek plaintext.length
  let aad ← aad P binding generation wrappedDek
  match A.encrypt dek nonce aad plaintext with
  | none => .error .storage
  | some ciphertext =>
      rejectIf (ciphertext.length > maxCiphertextBytes) .storage
      .ok ciphertext

/-- Authenticate and open one complete generation. -/
def openEnvelope (A : Aead) (P : Primitives) (binding : ProfileBinding) (generation : UInt64)
    (wrappedDek : Bytes) (dek : Dek) (nonce : StateNonce) (ciphertext : Bytes) :
    Except LabError Bytes := do
  rejectIf (ciphertext.length < 16 ∨ ciphertext.length > maxCiphertextBytes) .storage
  validateHeader generation wrappedDek (ciphertext.length - 16)
  let aad ← aad P binding generation wrappedDek
  match A.decrypt dek nonce aad ciphertext with
  | none => .error .storage
  | some plaintext => .ok plaintext

namespace Envelope

variable {A : Aead} {P : Primitives} {binding binding' : ProfileBinding}
variable {generation generation' : UInt64} {wrappedDek wrappedDek' : Bytes}
variable {dek : Dek} {nonce : StateNonce} {plaintext ciphertext : Bytes}

theorem foldlM_appendPart {parts : List Bytes} (short : ∀ part ∈ parts, part.length < 2 ^ 32)
    (encoded : Bytes) :
    parts.foldlM appendPart encoded = .ok (encoded ++ frames 4 parts) := by
  induction parts generalizing encoded with
  | nil => simp
  | cons part parts ih =>
      have first : appendPart encoded part = .ok (encoded ++ frame 4 part) := by
        rw [appendPart, rejectIf_of_not (not_not.mpr (short part (by simp))), ok_bind, frame,
          List.append_assoc]
      rw [List.foldlM_cons, first, ok_bind, ih (fun p m => short p (by simp [m])), frames_cons,
        List.append_assoc]

/-- Every part has a fixed length. -/
theorem length_aadParts (P : Primitives) (binding : ProfileBinding) (generation : UInt64)
    (wrappedDek : Bytes) :
    (aadParts P binding generation wrappedDek).map List.length =
      [33, 8, 8, 16, 8, 16, 32, 30, 6, 8] := by
  have domain : stateDomain.length = 33 := by decide
  have protocol : protocolDomain.length = 30 := by decide
  have version : vodozemacVersion.length = 6 := by decide
  simp only [aadParts, List.map_cons, List.map_nil, length_beBytes, length_toBeBytes,
    FixedBytes.length_toList, domain, protocol, version]

theorem aadParts_short {part : Bytes} (member : part ∈ aadParts P binding generation wrappedDek) :
    part.length < 2 ^ 32 := by
  have listed := List.mem_map_of_mem (f := List.length) member
  rw [length_aadParts] at listed
  have small : ∀ n ∈ [33, 8, 8, 16, 8, 16, 32, 30, 6, 8], n < 2 ^ 32 := by decide
  exact small _ listed

/-- No part is too long to be framed. -/
theorem aad_eq (P : Primitives) (binding : ProfileBinding) (generation : UInt64)
    (wrappedDek : Bytes) :
    aad P binding generation wrappedDek =
      .ok (frames 4 (aadParts P binding generation wrappedDek)) :=
  foldlM_appendPart (fun _ => aadParts_short) []

/-- The associated data determine the binding, the generation and the hash of the
wrapped key. -/
theorem aad_inj
    (same : aad P binding generation wrappedDek = aad P binding' generation' wrappedDek') :
    binding = binding' ∧ generation = generation' ∧ digest P wrappedDek = digest P wrappedDek' := by
  rw [aad_eq, aad_eq, Except.ok.injEq] at same
  have parts := frames_inj (by decide)
    (fun _ member => Nat.lt_of_lt_of_le (aadParts_short member) (by decide))
    (fun _ member => Nat.lt_of_lt_of_le (aadParts_short member) (by decide)) same
  simp only [aadParts, List.cons.injEq, FixedBytes.toList_inj, true_and, and_true] at parts
  obtain ⟨profileId, generation, keyRef, hash⟩ := parts
  exact ⟨ProfileBinding.ext profileId keyRef, toBeBytes_inj generation, hash⟩

theorem validateHeader_eq_ok {length : Nat} {u : Unit} :
    validateHeader generation wrappedDek length = .ok u ↔
      generation ≠ 0 ∧ generation.toNat < 2 ^ 63 ∧ wrappedDek ≠ [] ∧
        wrappedDek.length ≤ maxWrappedDekBytes ∧ length ≤ maxPlaintextBytes := by
  simp only [validateHeader, rejectIf_eq_ok, not_or, gt_iff_lt, ge_iff_le, Nat.not_lt, Nat.not_le,
    ne_eq]

theorem sealEnvelope_eq_ok :
    sealEnvelope A P binding generation wrappedDek dek nonce plaintext = .ok ciphertext ↔
      validateHeader generation wrappedDek plaintext.length = .ok () ∧
      A.encrypt dek nonce (frames 4 (aadParts P binding generation wrappedDek)) plaintext =
        some ciphertext ∧
      ciphertext.length ≤ maxCiphertextBytes := by
  simp only [sealEnvelope, aad_eq, bind_eq_ok, ok_bind]
  constructor
  · rintro ⟨_, header, rest⟩
    split at rest
    · cases rest
    · next encrypted =>
      obtain ⟨_, short, same⟩ := bind_eq_ok.mp rest
      cases same
      exact ⟨header, encrypted, Nat.not_lt.mp (rejectIf_eq_ok.mp short)⟩
  · rintro ⟨header, encrypted, short⟩
    refine ⟨(), header, ?_⟩
    rw [encrypted]
    exact bind_eq_ok.mpr ⟨(), rejectIf_of_not (Nat.not_lt.mpr short), rfl⟩

theorem openEnvelope_eq_ok :
    openEnvelope A P binding generation wrappedDek dek nonce ciphertext = .ok plaintext ↔
      16 ≤ ciphertext.length ∧ ciphertext.length ≤ maxCiphertextBytes ∧
      validateHeader generation wrappedDek (ciphertext.length - 16) = .ok () ∧
      A.decrypt dek nonce (frames 4 (aadParts P binding generation wrappedDek)) ciphertext =
        some plaintext := by
  simp only [openEnvelope, aad_eq, bind_eq_ok, ok_bind, rejectIf_eq_ok, not_or, Nat.not_lt,
    gt_iff_lt]
  constructor
  · rintro ⟨_, ⟨long, short⟩, _, header, rest⟩
    split at rest
    · cases rest
    · next decrypted =>
      cases rest
      exact ⟨long, short, header, decrypted⟩
  · rintro ⟨long, short, header, decrypted⟩
    refine ⟨(), ⟨long, short⟩, (), header, ?_⟩
    rw [decrypted]

/-- What was sealed opens again, if the ciphertext has room for its tag. -/
theorem openEnvelope_sealEnvelope (correct : A.Correct)
    (sealed : sealEnvelope A P binding generation wrappedDek dek nonce plaintext = .ok ciphertext)
    (tagged : 16 ≤ ciphertext.length) :
    openEnvelope A P binding generation wrappedDek dek nonce ciphertext = .ok plaintext := by
  obtain ⟨header, encrypted, short⟩ := sealEnvelope_eq_ok.mp sealed
  obtain ⟨positive, signed, present, bounded, _⟩ := validateHeader_eq_ok.mp header
  refine openEnvelope_eq_ok.mpr ⟨tagged, short, validateHeader_eq_ok.mpr
    ⟨positive, signed, present, bounded, ?_⟩, correct _ _ _ _ _ encrypted⟩
  exact Nat.sub_le_sub_right short 16

end Envelope

namespace Aead

/-- A cipher that can be evaluated: the ciphertext begins with the key, the nonce
and the associated data it was made under. -/
def symbolic : Aead where
  encrypt key nonce aad plaintext :=
    some (key.toList ++ nonce.toList ++ frame 8 aad ++ plaintext)
  decrypt key nonce aad ciphertext :=
    let header := key.toList ++ nonce.toList ++ frame 8 aad
    if header <+: ciphertext then some (ciphertext.drop header.length) else none

theorem symbolic_correct : symbolic.Correct := by
  intro key nonce aad plaintext ciphertext encrypted
  simp only [symbolic, Option.some.injEq] at encrypted ⊢
  subst encrypted
  rw [if_pos (List.prefix_append _ _), List.drop_left]

end Aead

namespace StateKeyProtector

/-- A platform that stores the key in the clear behind its binding. -/
def symbolic (binding : ProfileBinding) : StateKeyProtector where
  expectedBinding := .ok binding
  protectionLevel := .softwareBacked
  wrapDek dek := .ok (binding.profileId.toList ++ binding.keyRef.toList ++ dek.toList)
  unwrapDek wrapped :=
    if binding.profileId.toList ++ binding.keyRef.toList <+: wrapped then
      match FixedBytes.fromSlice 32 (wrapped.drop 32) with
      | some dek => .ok dek
      | none => .error .storage
    else .error .storage

theorem symbolic_unwrapDek {binding : ProfileBinding} {dek dek' : Dek} {wrapped : Bytes}
    (wraps : (symbolic binding).wrapDek dek = .ok wrapped)
    (unwraps : (symbolic binding).unwrapDek wrapped = .ok dek') : dek' = dek := by
  have body : wrapped.drop 32 = dek.toList := by
    rw [← Except.ok.inj wraps]
    exact List.drop_left' (by simp [binding.profileId.length_toList, binding.keyRef.length_toList])
  simp only [symbolic, body, FixedBytes.fromSlice_toList] at unwraps
  split at unwraps
  · exact (Except.ok.inj unwraps).symm
  · cases unwraps

end StateKeyProtector

end SecureMessenger
