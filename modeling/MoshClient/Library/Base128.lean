import Mathlib.Data.Nat.Basic
import Mathlib.Tactic.Ring

namespace Base128

/-- Seven payload bits a byte, lowest group first; every byte but the last has its high bit set. -/
def encode (number : Nat) : List UInt8 :=
  if number < 128 then [UInt8.ofNat number]
  else UInt8.ofNat (number % 128 + 128) :: encode (number / 128)
termination_by number
decreasing_by omega

/-- A group sequence that ends where its first byte without the high bit stands. -/
def Terminated : List UInt8 → Prop
  | [] => False
  | [byte] => byte.toNat < 128
  | byte :: next :: rest => 128 ≤ byte.toNat ∧ Terminated (next :: rest)

def value : List UInt8 → Nat
  | [] => 0
  | byte :: rest => byte.toNat % 128 + 128 * value rest

theorem toNat_ofNat {number : Nat} (bound : number < 256) : (UInt8.ofNat number).toNat = number := by
  simpa using bound

theorem encode_ne_nil (number : Nat) : encode number ≠ [] := by
  rw [encode]
  split <;> simp

theorem terminated_cons {byte : UInt8} {rest : List UInt8} (continued : 128 ≤ byte.toNat)
    (terminated : Terminated rest) : Terminated (byte :: rest) := by
  cases rest with
  | nil => exact terminated.elim
  | cons next rest => exact ⟨continued, terminated⟩

theorem encode_terminated (number : Nat) : Terminated (encode number) := by
  induction number using encode.induct with
  | case1 number small =>
    rw [encode, if_pos small]
    change (UInt8.ofNat number).toNat < 128
    rw [toNat_ofNat (by omega)]
    exact small
  | case2 number large ih =>
    rw [encode, if_neg large]
    refine terminated_cons ?_ ih
    rw [toNat_ofNat (by omega)]
    omega

theorem value_encode (number : Nat) : value (encode number) = number := by
  induction number using encode.induct with
  | case1 number small =>
    rw [encode, if_pos small]
    simp only [value, toNat_ofNat (show number < 256 by omega)]
    omega
  | case2 number large ih =>
    rw [encode, if_neg large]
    simp only [value, toNat_ofNat (show number % 128 + 128 < 256 by omega), ih]
    omega

theorem encode_length_le (number groups : Nat) (bound : number < 128 ^ (groups + 1)) :
    (encode number).length ≤ groups + 1 := by
  induction groups generalizing number with
  | zero =>
    have small : number < 128 := by simpa using bound
    rw [encode, if_pos small]
    simp
  | succ groups ih =>
    rw [encode]
    split
    · simp
    · have quotient : number / 128 < 128 ^ (groups + 1) := by
        rw [Nat.div_lt_iff_lt_mul (by decide)]
        simpa only [Nat.pow_succ] using bound
      simpa using ih _ quotient

end Base128
