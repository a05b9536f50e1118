import Mathlib.Data.List.Basic
import Mathlib.Algebra.Group.Nat.Defs

/-! Numbers as little-endian bytes of a fixed width. Writing keeps the low bytes, and a
read of as many bytes undoes a write of a number that fits. -/

namespace Wire

def leBytes : Nat → Nat → List UInt8
  | 0, _ => []
  | width + 1, value => UInt8.ofNat value :: leBytes width (value / 256)

def leValue : List UInt8 → Nat
  | [] => 0
  | byte :: rest => byte.toNat + 256 * leValue rest

@[simp] theorem length_leBytes (width value : Nat) : (leBytes width value).length = width := by
  induction width generalizing value with
  | zero => rfl
  | succ width ih => simp [leBytes, ih]

theorem leValue_leBytes (width value : Nat) : leValue (leBytes width value) = value % 256 ^ width := by
  induction width generalizing value with
  | zero => simp [leBytes, leValue, Nat.mod_one]
  | succ width ih =>
    have low : (UInt8.ofNat value).toNat = value % 256 := UInt8.toNat_ofNat'
    rw [leBytes, leValue, ih, low, Nat.pow_succ, Nat.mul_comm (256 ^ width), Nat.mod_mul]

theorem leValue_lt (bytes : List UInt8) : leValue bytes < 256 ^ bytes.length := by
  induction bytes with
  | nil => simp [leValue]
  | cons byte rest ih =>
    have small := byte.toNat_lt
    rw [leValue, List.length_cons, Nat.pow_succ]
    omega

theorem leBytes_leValue (bytes : List UInt8) : leBytes bytes.length (leValue bytes) = bytes := by
  induction bytes with
  | nil => rfl
  | cons byte rest ih =>
    have small := byte.toNat_lt
    have head : UInt8.ofNat (byte.toNat + 256 * leValue rest) = byte := by
      apply UInt8.toNat_inj.mp
      rw [UInt8.toNat_ofNat']
      omega
    have tail : (byte.toNat + 256 * leValue rest) / 256 = leValue rest := by omega
    rw [leValue, List.length_cons, leBytes, head, tail, ih]

theorem leValue_eq_iff {bytes : List UInt8} {width value : Nat} (size : bytes.length = width) :
    leValue bytes = value ↔ value < 256 ^ width ∧ bytes = leBytes width value := by
  constructor
  · rintro rfl
    subst size
    exact ⟨leValue_lt bytes, (leBytes_leValue bytes).symm⟩
  · rintro ⟨small, rfl⟩
    rw [leValue_leBytes, Nat.mod_eq_of_lt small]

end Wire
