import Mathlib.Data.List.Basic
import Mathlib.Tactic.Ring

/-!
# Big-endian numerals and length-prefixed framing

A frame is a byte string preceded by its length, written as a big-endian
numeral of fixed width. A sequence of frames carries neither a count nor an end
marker, and its parts are arbitrary bytes, so one encoding may be a proper
initial segment of another and a part may itself imitate a length. Reading from
the left is nevertheless unambiguous: the first numeral determines where the
first part ends. The injectivity theorem is that reading, by list induction.
-/

namespace Framing

/-- The `width` low-order base-256 digits of `value`, most significant first. -/
def beBytes : (width : Nat) → (value : Nat) → List UInt8
  | 0, _ => []
  | width + 1, value => beBytes width (value / 256) ++ [UInt8.ofNat (value % 256)]

@[simp] theorem length_beBytes (width value : Nat) :
    (beBytes width value).length = width := by
  induction width generalizing value with
  | zero => rfl
  | succ width ih => simp [beBytes, ih]

/-- A numeral determines its value among those that fit the width. -/
theorem beBytes_inj {width a b : Nat} (ha : a < 256 ^ width) (hb : b < 256 ^ width)
    (h : beBytes width a = beBytes width b) : a = b := by
  induction width generalizing a b with
  | zero =>
      simp only [Nat.pow_zero, Nat.lt_one_iff] at ha hb
      rw [ha, hb]
  | succ width ih =>
      rw [Nat.pow_succ] at ha hb
      obtain ⟨high, low⟩ := List.append_inj' h rfl
      have digit : a % 256 = b % 256 := by
        have same := congrArg UInt8.toNat (List.singleton_inj.mp low)
        simp only [UInt8.toNat_ofNat'] at same
        omega
      have quotient : a / 256 = b / 256 :=
        ih (by omega) (by omega) high
      omega

/-- The value of a numeral. -/
def beValue (bytes : List UInt8) : Nat :=
  bytes.foldl (fun value byte => value * 256 + byte.toNat) 0

theorem beValue_beBytes {width value : Nat} (fits : value < 256 ^ width) :
    beValue (beBytes width value) = value := by
  induction width generalizing value with
  | zero =>
      simp only [Nat.pow_zero, Nat.lt_one_iff] at fits
      rw [fits]
      rfl
  | succ width ih =>
      rw [Nat.pow_succ] at fits
      have high : beValue (beBytes width (value / 256)) = value / 256 := ih (by omega)
      have low : (UInt8.ofNat (value % 256)).toNat = value % 256 := by
        rw [UInt8.toNat_ofNat']
        omega
      rw [beValue] at high
      simp only [beValue, beBytes, List.foldl_append, List.foldl_cons, List.foldl_nil, high, low]
      omega

/-- One part behind its length. -/
def frame (width : Nat) (part : List UInt8) : List UInt8 :=
  beBytes width part.length ++ part

/-- The frames of a list of parts, one after the other. -/
def frames (width : Nat) (parts : List (List UInt8)) : List UInt8 :=
  parts.flatMap (frame width)

@[simp] theorem frames_nil (width : Nat) : frames width [] = [] := rfl

@[simp] theorem frames_cons (width : Nat) (part : List UInt8) (parts : List (List UInt8)) :
    frames width (part :: parts) = frame width part ++ frames width parts := rfl

@[simp] theorem length_frame (width : Nat) (part : List UInt8) :
    (frame width part).length = width + part.length := by
  simp [frame]

/-- The first frame of a byte string is determined, together with what follows. -/
theorem frame_append_inj {width : Nat} {part part' rest rest' : List UInt8}
    (fits : part.length < 256 ^ width) (fits' : part'.length < 256 ^ width)
    (h : frame width part ++ rest = frame width part' ++ rest') :
    part = part' ∧ rest = rest' := by
  simp only [frame, List.append_assoc] at h
  obtain ⟨lengths, bodies⟩ := List.append_inj h (by simp)
  exact List.append_inj bodies (beBytes_inj fits fits' lengths)

/-- Framing is injective on lists of parts, of any number and any content, as
long as every length fits the numeral. -/
theorem frames_inj {width : Nat} (positive : 0 < width) {parts parts' : List (List UInt8)}
    (fits : ∀ part ∈ parts, part.length < 256 ^ width)
    (fits' : ∀ part ∈ parts', part.length < 256 ^ width)
    (h : frames width parts = frames width parts') : parts = parts' := by
  induction parts generalizing parts' with
  | nil =>
      cases parts' with
      | nil => rfl
      | cons part' parts' =>
          have := congrArg List.length h
          simp at this
          omega
  | cons part parts ih =>
      cases parts' with
      | nil =>
          have := congrArg List.length h
          simp at this
          omega
      | cons part' parts' =>
          obtain ⟨same, rest⟩ := frame_append_inj
            (fits part (by simp)) (fits' part' (by simp)) h
          have tail := ih (fun p m => fits p (by simp [m])) (fun p m => fits' p (by simp [m])) rest
          rw [same, tail]

end Framing
