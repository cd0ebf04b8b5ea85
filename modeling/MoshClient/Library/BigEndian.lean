import Mathlib.Data.List.Induction
import Mathlib.Data.Nat.Basic
import Mathlib.Tactic.Ring

namespace BigEndian

/-- The lowest `width` bytes of a number, most significant first. -/
def encode : Nat → Nat → List UInt8
  | 0, _ => []
  | width + 1, number => encode width (number / 256) ++ [UInt8.ofNat (number % 256)]

def value (bytes : List UInt8) : Nat :=
  bytes.foldl (fun total byte => total * 256 + byte.toNat) 0

@[simp] theorem encode_length (width number : Nat) : (encode width number).length = width := by
  induction width generalizing number with
  | zero => rfl
  | succ width ih => simp [encode, ih]

theorem value_append_singleton (bytes : List UInt8) (byte : UInt8) :
    value (bytes ++ [byte]) = value bytes * 256 + byte.toNat := by
  simp [value, List.foldl_append]

theorem value_encode (width number : Nat) : value (encode width number) = number % 256 ^ width := by
  induction width generalizing number with
  | zero => simp [encode, value, Nat.mod_one]
  | succ width ih =>
    rw [encode, value_append_singleton, ih]
    have low : (UInt8.ofNat (number % 256)).toNat = number % 256 := by simp
    rw [low, Nat.pow_succ', Nat.mod_mul]
    ring

theorem value_encode_of_lt {width number : Nat} (bound : number < 256 ^ width) :
    value (encode width number) = number := by
  rw [value_encode, Nat.mod_eq_of_lt bound]

theorem encode_injective (width : Nat) {left right : Nat} (leftBound : left < 256 ^ width)
    (rightBound : right < 256 ^ width) (same : encode width left = encode width right) :
    left = right := by
  rw [← value_encode_of_lt leftBound, ← value_encode_of_lt rightBound, same]

theorem value_lt (bytes : List UInt8) : value bytes < 256 ^ bytes.length := by
  induction bytes using List.reverseRecOn with
  | nil => decide
  | append_singleton bytes byte ih =>
    have bound := byte.toNat_lt
    rw [value_append_singleton, List.length_append, List.length_singleton, Nat.pow_succ]
    omega

theorem encode_value (bytes : List UInt8) : encode bytes.length (value bytes) = bytes := by
  induction bytes using List.reverseRecOn with
  | nil => rfl
  | append_singleton bytes byte ih =>
    have bound := byte.toNat_lt
    rw [value_append_singleton, List.length_append, List.length_singleton, encode,
      show (value bytes * 256 + byte.toNat) / 256 = value bytes by omega, ih,
      show (value bytes * 256 + byte.toNat) % 256 = byte.toNat by omega, UInt8.ofNat_toNat]

end BigEndian
