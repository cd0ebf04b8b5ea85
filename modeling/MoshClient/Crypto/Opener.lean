import MoshClient.Crypto.Sealer

namespace MoshModel

def tagLen : Nat := 16
def minDatagramLen : Nat := wireNonceLen + tagLen

namespace Nonce

theorem and_directionMask (value : UInt64) : value &&& directionMask = 0 ↔ value.toNat < 2 ^ 63 := by
  have bound := value.toNat_lt
  have bit := Nat.and_two_pow value.toNat 63
  rw [← UInt64.toNat_inj, UInt64.toNat_and, show directionMask.toNat = 2 ^ 63 by decide, bit,
    Nat.testBit_eq_decide_div_mod_eq]
  show (decide (value.toNat / 2 ^ 63 % 2 = 1)).toNat * 2 ^ 63 = 0 ↔ value.toNat < 2 ^ 63
  by_cases high : value.toNat / 2 ^ 63 % 2 = 1
  · simp only [high, decide_true, Bool.toNat_true]
    omega
  · simp only [high, decide_false, Bool.toNat_false]
    omega

theorem new_direction (direction : Direction) {seq : UInt64} (bound : seq ≤ seqMask) :
    (new direction seq).direction = direction := by
  have small := toNat_lt_of_le_seqMask bound
  have value := new_toNat direction bound
  have mask := and_directionMask (new direction seq).value
  unfold Nonce.direction
  cases direction with
  | toServer =>
    rw [if_pos]
    rw [mask, value]
    simpa [Direction.bit] using small
  | toClient =>
    rw [if_neg]
    rw [mask, value]
    simp [Direction.bit]

theorem seq_le_seqMask (nonce : Nonce) : nonce.seq ≤ seqMask := by
  have small := nonce.seq_toNat_lt
  have mask : seqMask.toNat = 2 ^ 63 - 1 := by decide
  rw [UInt64.le_iff_toNat_le, mask]
  omega

theorem new_of_parts (nonce : Nonce) : new nonce.direction nonce.seq = nonce := by
  have value := new_toNat nonce.direction nonce.seq_le_seqMask
  have mask := and_directionMask nonce.value
  have whole := nonce.value.toNat_lt
  apply Nonce.ext
  apply UInt64.toNat_inj.mp
  rw [value, seq, toNat_and_seqMask]
  unfold direction
  split
  · rename_i low
    rw [mask] at low
    show 0 * 2 ^ 63 + nonce.value.toNat % 2 ^ 63 = nonce.value.toNat
    omega
  · rename_i high
    rw [mask] at high
    show 1 * 2 ^ 63 + nonce.value.toNat % 2 ^ 63 = nonce.value.toNat
    omega

theorem wireSuffix_fromWireSuffix {suffix : Bytes} (whole : suffix.length = wireNonceLen) :
    (fromWireSuffix suffix).wireSuffix = suffix := by
  have bound := BigEndian.value_lt suffix
  have bytes := BigEndian.encode_value suffix
  rw [whole] at bound bytes
  unfold wireSuffix fromWireSuffix
  rw [List.take_of_length_le (by rw [whole]; exact Nat.le_refl _), UInt64.toNat_ofNat',
    show BigEndian.value suffix % 2 ^ 64 = BigEndian.value suffix from Nat.mod_eq_of_lt bound]
  exact bytes

end Nonce

namespace PacketHeader

def parse (payload : Bytes) : Option (PacketHeader × Bytes) :=
  if payload.length < 4 then none
  else
    some ({ timestamp := UInt16.ofNat (BigEndian.value ((payload.take 4).take 2)),
            timestampReply := UInt16.ofNat (BigEndian.value ((payload.take 4).drop 2)) }, payload.drop 4)

@[simp] theorem write_length (header : PacketHeader) : header.write.length = 4 := by simp [write]

theorem parse_write (header : PacketHeader) (frag : Bytes) :
    parse (header.write ++ frag) = some (header, frag) := by
  have first : (BigEndian.encode 2 header.timestamp.toNat).length = 2 := BigEndian.encode_length _ _
  unfold parse
  rw [if_neg (by simp), List.take_left' header.write_length, List.drop_left' header.write_length]
  unfold write
  rw [List.take_left' first, List.drop_left' first,
    BigEndian.value_encode_of_lt header.timestamp.toNat_lt,
    BigEndian.value_encode_of_lt header.timestampReply.toNat_lt, UInt16.ofNat_toNat, UInt16.ofNat_toNat]

theorem write_parse {payload frag : Bytes} {header : PacketHeader}
    (parsed : parse payload = some (header, frag)) : header.write ++ frag = payload := by
  unfold parse at parsed
  split at parsed
  · cases parsed
  · rename_i long
    have pair : ∀ bytes : Bytes, bytes.length = 2 →
        BigEndian.encode 2 (UInt16.ofNat (BigEndian.value bytes)).toNat = bytes := by
      intro bytes two
      have bound := BigEndian.value_lt bytes
      have restored := BigEndian.encode_value bytes
      rw [two] at bound restored
      rwa [UInt16.toNat_ofNat', show BigEndian.value bytes % 2 ^ 16 = BigEndian.value bytes from
        Nat.mod_eq_of_lt bound]
    cases parsed
    unfold write
    dsimp only
    rw [pair, pair, List.take_append_drop, List.take_append_drop]
    · rw [List.length_drop, List.length_take]
      omega
    · rw [List.length_take, List.length_take]
      omega

end PacketHeader

/-- `Ocb3::decrypt` under the session key, `none` where the tag does not verify. -/
abbrev AeadOpen := Bytes → Bytes → Option Bytes

structure MoshOpener where
  peerDirection : Direction
deriving DecidableEq

def MoshOpener.openDatagram (decrypt : AeadOpen) (opener : MoshOpener) (datagram : Bytes) :
    Except MoshCryptoError (UInt64 × PacketHeader × Bytes) :=
  if datagram.length < minDatagramLen then .error .datagramTooShort
  else
    let nonce := Nonce.fromWireSuffix (datagram.take wireNonceLen)
    if nonce.direction ≠ opener.peerDirection then .error .directionMismatch
    else
      match decrypt nonce.toNonce12 (datagram.drop wireNonceLen) with
      | none => .error .tagMismatch
      | some packet =>
        match PacketHeader.parse packet with
        | none => .error .packetTooShort
        | some (header, frag) => .ok (nonce.seq, header, frag)

end MoshModel
