import MoshClient.Wire.Primitives
import MoshClient.Library.BigEndian
import Mathlib.Data.Nat.Bitwise

namespace MoshModel

/-- Bit 63 of a nonce value. -/
inductive Direction where
  | toServer
  | toClient
deriving DecidableEq

namespace Direction

def opposite : Direction → Direction
  | toServer => toClient
  | toClient => toServer

def bit : Direction → UInt64
  | toServer => 0
  | toClient => 1

end Direction

def wireNonceLen : Nat := 8
def nonceLen : Nat := 12
def directionMask : UInt64 := (1 : UInt64) <<< 63
def seqMask : UInt64 := 0xFFFFFFFFFFFFFFFF ^^^ directionMask

@[ext]
structure Nonce where
  value : UInt64
deriving DecidableEq

namespace Nonce

/-- Sequence numbers are u63; bits above are masked. -/
def new (direction : Direction) (seq : UInt64) : Nonce :=
  { value := (direction.bit <<< 63) ||| (seq &&& seqMask) }

def fromWireSuffix (suffix : Bytes) : Nonce :=
  { value := UInt64.ofNat (BigEndian.value (suffix.take 8)) }

def toNonce12 (nonce : Nonce) : Bytes :=
  List.replicate (nonceLen - wireNonceLen) 0 ++ BigEndian.encode wireNonceLen nonce.value.toNat

def wireSuffix (nonce : Nonce) : Bytes := BigEndian.encode wireNonceLen nonce.value.toNat

def seq (nonce : Nonce) : UInt64 := nonce.value &&& seqMask

def direction (nonce : Nonce) : Direction :=
  if nonce.value &&& directionMask = 0 then .toServer else .toClient

@[simp] theorem wireSuffix_length (nonce : Nonce) : nonce.wireSuffix.length = 8 := by
  simp [wireSuffix, wireNonceLen]

theorem fromWireSuffix_wireSuffix (nonce : Nonce) (rest : Bytes) :
    fromWireSuffix (nonce.wireSuffix ++ rest) = nonce := by
  have bound : nonce.value.toNat < 256 ^ 8 := nonce.value.toNat_lt
  have start : (nonce.wireSuffix ++ rest).take 8 = nonce.wireSuffix :=
    List.take_left' nonce.wireSuffix_length
  unfold fromWireSuffix
  rw [start, wireSuffix, wireNonceLen, BigEndian.value_encode_of_lt bound, UInt64.ofNat_toNat]

theorem toNonce12_injective {left right : Nonce} (same : left.toNonce12 = right.toNonce12) :
    left = right := by
  have values := BigEndian.encode_injective 8 left.value.toNat_lt right.value.toNat_lt
    (List.append_cancel_left same)
  exact Nonce.ext (UInt64.toNat_inj.mp values)

theorem toNat_and_seqMask (value : UInt64) : (value &&& seqMask).toNat = value.toNat % 2 ^ 63 := by
  have mask : seqMask.toNat = 2 ^ 63 - 1 := by decide
  rw [UInt64.toNat_and, mask, Nat.and_two_pow_sub_one_eq_mod]

theorem seq_toNat_lt (nonce : Nonce) : nonce.seq.toNat < 2 ^ 63 := by
  rw [seq, toNat_and_seqMask]
  exact Nat.mod_lt _ (by decide)

theorem toNat_lt_of_le_seqMask {seq : UInt64} (bound : seq ≤ seqMask) : seq.toNat < 2 ^ 63 := by
  have mask : seqMask.toNat = 2 ^ 63 - 1 := by decide
  have := UInt64.le_iff_toNat_le.mp bound
  omega

theorem new_toNat (direction : Direction) {seq : UInt64} (bound : seq ≤ seqMask) :
    (new direction seq).value.toNat = direction.bit.toNat * 2 ^ 63 + seq.toNat := by
  have small := toNat_lt_of_le_seqMask bound
  have kept : (seq &&& seqMask).toNat = seq.toNat := by
    rw [toNat_and_seqMask, Nat.mod_eq_of_lt small]
  cases direction with
  | toServer => simp [new, Direction.bit, kept]
  | toClient =>
    have top : ((1 : UInt64) <<< 63).toNat = 2 ^ 63 * 1 := by decide
    simp only [new, Direction.bit, UInt64.toNat_or, top, kept]
    rw [← Nat.two_pow_add_eq_or_of_lt small]
    rfl

theorem new_seq (direction : Direction) {seq : UInt64} (bound : seq ≤ seqMask) :
    (new direction seq).seq = seq := by
  have small := toNat_lt_of_le_seqMask bound
  apply UInt64.toNat_inj.mp
  rw [Nonce.seq, toNat_and_seqMask, new_toNat direction bound]
  cases direction <;> simp only [Direction.bit] <;> omega

theorem new_bit (direction : Direction) {seq : UInt64} (bound : seq ≤ seqMask) :
    (new direction seq).value >>> 63 = direction.bit := by
  have small := toNat_lt_of_le_seqMask bound
  apply UInt64.toNat_inj.mp
  rw [UInt64.toNat_shiftRight, new_toNat direction bound, Nat.shiftRight_eq_div_pow]
  cases direction with
  | toServer =>
    show (0 * 2 ^ 63 + seq.toNat) / 2 ^ 63 = 0
    omega
  | toClient =>
    show (1 * 2 ^ 63 + seq.toNat) / 2 ^ 63 = 1
    omega

end Nonce

end MoshModel
