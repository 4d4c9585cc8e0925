import SecureMessenger.Library.Framing
import SecureMessenger.Library.Fallible

/-!
# Identifiers, errors, clock values and cryptographic primitives

Byte strings are lists of bytes. Fixed-length arrays carry their length, so an
identifier of the wrong length cannot be built. Clock values and expiries are
unsigned 64-bit words as in the source; the database stores signed integers and
the conversion is the checked one.

Ed25519 and SHA-256 come from third-party packages. They enter as parameters of
the development, collected in `Primitives`, with no law attached: each theorem
that needs unforgeability or absence of collisions says so itself.
-/

namespace SecureMessenger

open Fallible

abbrev Bytes := List UInt8

/-- An array of exactly `n` bytes. -/
@[ext] structure FixedBytes (n : Nat) where
  toList : Bytes
  length_toList : toList.length = n
deriving DecidableEq

namespace FixedBytes

variable {n : Nat}

@[simp] theorem toList_inj {a b : FixedBytes n} : a.toList = b.toList ↔ a = b :=
  ⟨FixedBytes.ext, congrArg FixedBytes.toList⟩

/-- Conversion from a slice, which fails on any other length. -/
def fromSlice (n : Nat) (value : Bytes) : Option (FixedBytes n) :=
  if h : value.length = n then some ⟨value, h⟩ else none

@[simp] theorem fromSlice_toList (a : FixedBytes n) : fromSlice n a.toList = some a := by
  simp [fromSlice, a.length_toList]

/-- One byte throughout. -/
def fill (n : Nat) (byte : UInt8) : FixedBytes n := ⟨List.replicate n byte, List.length_replicate⟩

theorem toList_of_fromSlice {value : Bytes} {a : FixedBytes n}
    (h : fromSlice n value = some a) : a.toList = value := by
  unfold fromSlice at h
  split at h
  · cases h
    rfl
  · cases h

end FixedBytes

/-- The four identifier types are instances of one declaration in the source. -/
abbrev QueueId := FixedBytes 32
abbrev MessageId := FixedBytes 16
abbrev ConversationId := FixedBytes 16
abbrev Nonce := FixedBytes 16

/-- Errors are deliberately coarse. -/
inductive LabError
  | missingSession
  | sessionAlreadyExists
  | expectedPreKey
  | peerVerificationFailed
  | crypto
  | encoding
  | invalidPayload
  | wrongConversation
  | messageIdMismatch
  | duplicateMessage
  | unauthorized
  | requestExpired
  | invalidExpiry
  | mailboxNotFound
  | mailboxConflict
  | messageConflict
  | messageGone
  | messageNotFound
  | storage
deriving DecidableEq, Repr

/-- Addition that stops at the largest word. -/
def saturatingAdd (a b : UInt64) : UInt64 :=
  UInt64.ofNat (min (a.toNat + b.toNat) (2 ^ 64 - 1))

@[simp] theorem toNat_saturatingAdd (a b : UInt64) :
    (saturatingAdd a b).toNat = min (a.toNat + b.toNat) (2 ^ 64 - 1) := by
  rw [saturatingAdd, UInt64.toNat_ofNat']
  exact Nat.mod_eq_of_lt (by omega)

/-- Checked conversion to the signed integers of the database. -/
def toI64 (value : UInt64) : Except LabError Int :=
  if value.toNat < 2 ^ 63 then .ok value.toNat else .error .storage

theorem toI64_eq_ok {value : UInt64} {n : Int} :
    toI64 value = .ok n ↔ value.toNat < 2 ^ 63 ∧ n = value.toNat := by
  rw [toI64]
  split
  · simp_all [eq_comm]
  · simp_all

/-- Checked conversion from a signed integer of the database. -/
def toU64 (value : Int) : Option UInt64 :=
  if 0 ≤ value ∧ value < 2 ^ 64 then some (UInt64.ofNat value.toNat) else none

theorem toU64_toNat (value : UInt64) : toU64 value.toNat = some value := by
  have bound := value.toNat_lt
  rw [toU64]
  rw [if_pos (by omega)]
  simp

theorem toU64_eq_some {value : Int} {n : UInt64} (h : toU64 value = some n) :
    value = n.toNat := by
  unfold toU64 at h
  split at h
  · cases h
    rw [UInt64.toNat_ofNat']
    omega
  · cases h

/-- The eight bytes of a word, most significant first. -/
def toBeBytes (value : UInt64) : Bytes := Framing.beBytes 8 value.toNat

theorem toBeBytes_inj {a b : UInt64} (h : toBeBytes a = toBeBytes b) : a = b :=
  UInt64.toNat_inj.mp (Framing.beBytes_inj a.toNat_lt b.toNat_lt h)

@[simp] theorem length_toBeBytes (value : UInt64) : (toBeBytes value).length = 8 := by
  simp [toBeBytes]

abbrev Ed25519Signature := FixedBytes 64

/-- The third-party primitives the program calls. `isPublicKey` is the set of
encodings `Ed25519PublicKey::from_slice` accepts. -/
structure Primitives where
  isPublicKey : FixedBytes 32 → Bool
  publicKey : FixedBytes 32 → FixedBytes 32
  sign : FixedBytes 32 → Bytes → Ed25519Signature
  verify : FixedBytes 32 → Bytes → Ed25519Signature → Bool
  sha256 : Bytes → FixedBytes 32

variable {P : Primitives}

/-- A public key is an accepted encoding; equality compares the encodings. -/
@[ext] structure Ed25519PublicKey (P : Primitives) where
  bytes : FixedBytes 32
  accepted : P.isPublicKey bytes = true
deriving DecidableEq

namespace Ed25519PublicKey

def asBytes (key : Ed25519PublicKey P) : Bytes := key.bytes.toList

@[simp] theorem asBytes_inj {a b : Ed25519PublicKey P} : a.asBytes = b.asBytes ↔ a = b := by
  rw [asBytes, asBytes, FixedBytes.toList_inj]
  exact ⟨Ed25519PublicKey.ext, congrArg bytes⟩

@[simp] theorem length_asBytes (key : Ed25519PublicKey P) : key.asBytes.length = 32 :=
  key.bytes.length_toList

def fromSlice (P : Primitives) (bytes : FixedBytes 32) : Option (Ed25519PublicKey P) :=
  if h : P.isPublicKey bytes = true then some ⟨bytes, h⟩ else none

@[simp] theorem fromSlice_bytes (key : Ed25519PublicKey P) : fromSlice P key.bytes = some key := by
  simp [fromSlice, key.accepted]

theorem bytes_of_fromSlice {bytes : FixedBytes 32} {key : Ed25519PublicKey P}
    (h : fromSlice P bytes = some key) : key.bytes = bytes := by
  unfold fromSlice at h
  split at h
  · cases h
    rfl
  · cases h

/-- Signature verification reports failure as an error in the source. -/
def verify (key : Ed25519PublicKey P) (message : Bytes) (signature : Ed25519Signature) : Bool :=
  P.verify key.bytes message signature

end Ed25519PublicKey

/-- A signing key with its own public key. -/
structure Ed25519Keypair (P : Primitives) where
  secret : FixedBytes 32
  publicKey : Ed25519PublicKey P
  matching : publicKey.bytes = P.publicKey secret

def Ed25519Keypair.sign (pair : Ed25519Keypair P) (message : Bytes) : Ed25519Signature :=
  P.sign pair.secret message

/-- Verification accepts what a key pair signs. -/
def Primitives.Genuine (P : Primitives) : Prop :=
  ∀ (pair : Ed25519Keypair P) (message : Bytes),
    pair.publicKey.verify message (pair.sign message) = true

/-- SHA-256 as the crate calls it. -/
def digest (P : Primitives) (bytes : Bytes) : FixedBytes 32 := P.sha256 bytes

/-- No two of these byte strings share a digest. A digest of fixed length cannot
be injective on all byte strings, so the assumption names the strings at stake. -/
def CollisionFree (P : Primitives) (strings : Bytes → Prop) : Prop :=
  ∀ a b, strings a → strings b → digest P a = digest P b → a = b

namespace Primitives

/-- A positional checksum modulo `2 ^ 256`. -/
def checksum (bytes : Bytes) : FixedBytes 32 :=
  ⟨Framing.beBytes 32 (bytes.foldl (fun sum byte => (sum * 257 + byte.toNat + 1) % 2 ^ 256) 0),
    Framing.length_beBytes _ _⟩

/-- A digest without collisions among the strings of 32 bytes. -/
def symbolicDigest (bytes : Bytes) : FixedBytes 32 :=
  match FixedBytes.fromSlice 32 bytes with
  | some fixed => fixed
  | none => checksum bytes

/-- Symbolic stand-ins that can be evaluated. A signature names its signer and
the checksum of what was signed; the secret of a key is its encoding. -/
def symbolic : Primitives where
  isPublicKey _ := true
  publicKey secret := secret
  sign secret message := ⟨secret.toList ++ (checksum message).toList, by
    rw [List.length_append, secret.length_toList, (checksum message).length_toList]⟩
  verify key message signature := signature.toList = key.toList ++ (checksum message).toList
  sha256 := symbolicDigest

/-- A symbolic signature verifies under the signer's key and under no other. -/
theorem symbolic_verify_sign {key secret : FixedBytes 32} {message : Bytes} :
    symbolic.verify key message (symbolic.sign secret message) = true ↔
      key = symbolic.publicKey secret := by
  simp [symbolic, eq_comm]

theorem symbolic_genuine : symbolic.Genuine :=
  fun pair _ => symbolic_verify_sign.mpr pair.matching

theorem symbolic_digest_injective :
    Function.Injective fun fixed : FixedBytes 32 => digest symbolic fixed.toList := by
  intro a b same
  simpa [digest, symbolic, symbolicDigest] using same

end Primitives

/-- The symbolic key pair of a secret. -/
def Ed25519Keypair.symbolic (secret : FixedBytes 32) : Ed25519Keypair .symbolic where
  secret := secret
  publicKey := ⟨secret, rfl⟩
  matching := rfl

theorem Ed25519Keypair.symbolic_verify {key : Ed25519PublicKey .symbolic} {secret : FixedBytes 32}
    {message : Bytes} (h : key.verify message ((symbolic secret).sign message) = true) :
    key = (symbolic secret).publicKey :=
  Ed25519PublicKey.ext (Primitives.symbolic_verify_sign.mp h)

end SecureMessenger
