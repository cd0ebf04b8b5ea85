import MoshClient.Crypto.Nonce

namespace MoshModel

def blockLimit : UInt64 := (1 : UInt64) <<< 47

structure PacketHeader where
  timestamp : UInt16
  timestampReply : UInt16
deriving DecidableEq

def PacketHeader.write (header : PacketHeader) : Bytes :=
  BigEndian.encode 2 header.timestamp.toNat ++ BigEndian.encode 2 header.timestampReply.toNat

inductive MoshCryptoError where
  | datagramTooShort
  | tagMismatch
  | packetTooShort
  | directionMismatch
  | sequenceExhausted
  | sessionExhausted
  | encryptFailed
deriving DecidableEq

def MoshCryptoError.message : MoshCryptoError → String
  | .datagramTooShort => "datagram too short to contain nonce and tag"
  | .tagMismatch => "datagram failed the integrity check"
  | .packetTooShort => "packet plaintext shorter than the 4-byte timestamp header"
  | .directionMismatch => "datagram carries our own direction bit (reflected packet)"
  | .sequenceExhausted => "send sequence numbers exhausted"
  | .sessionExhausted => "session exceeded the 2^47-block per-key limit"
  | .encryptFailed => "the AEAD rejected the packet on send"

/-- `Ocb3::encrypt` under the session key: nonce and packet to ciphertext with tag, or a failure. -/
abbrev Aead := Bytes → Bytes → Option Bytes

structure MoshSealer where
  direction : Direction
  nextSeq : UInt64
  blocksEncrypted : UInt64
deriving DecidableEq

namespace MoshSealer

def new (direction : Direction) : MoshSealer :=
  { direction := direction, nextSeq := 0, blocksEncrypted := 0 }

def nextNonce (sealer : MoshSealer) : Except MoshCryptoError Nonce × MoshSealer :=
  if seqMask < sealer.nextSeq then (.error .sequenceExhausted, sealer)
  else (.ok (Nonce.new sealer.direction sealer.nextSeq), { sealer with nextSeq := sealer.nextSeq + 1 })

def packet (header : PacketHeader) (frag : Bytes) : Bytes := header.write ++ frag

/-- `(packet.len() as u64).div_ceil(16)`. -/
def blocks (header : PacketHeader) (frag : Bytes) : UInt64 :=
  let len := UInt64.ofNat (packet header frag).length
  if len % 16 = 0 then len / 16 else len / 16 + 1

def sealDatagram (encrypt : Aead) (sealer : MoshSealer) (header : PacketHeader) (frag : Bytes) :
    Except MoshCryptoError Bytes × MoshSealer :=
  let counted := { sealer with blocksEncrypted := sealer.blocksEncrypted + blocks header frag }
  if blockLimit ≤ counted.blocksEncrypted then (.error .sessionExhausted, counted)
  else
    match counted.nextNonce with
    | (.error e, after) => (.error e, after)
    | (.ok nonce, after) =>
      match encrypt nonce.toNonce12 (packet header frag) with
      | none => (.error .encryptFailed, after)
      | some ctAndTag => (.ok (nonce.wireSuffix ++ ctAndTag), after)

/-- Everything one call can do: two refusals ahead of the nonce, and a nonce that is spent whether or
    not the AEAD takes the packet. -/
theorem sealDatagram_cases (encrypt : Aead) (sealer : MoshSealer) (header : PacketHeader) (frag : Bytes) :
    let after := (sealer.sealDatagram encrypt header frag).2
    let returned := (sealer.sealDatagram encrypt header frag).1
    after.direction = sealer.direction ∧
      after.blocksEncrypted = sealer.blocksEncrypted + blocks header frag ∧
      ((returned = .error .sessionExhausted ∧ after.nextSeq = sealer.nextSeq ∧
          blockLimit ≤ after.blocksEncrypted) ∨
        (returned = .error .sequenceExhausted ∧ after.nextSeq = sealer.nextSeq ∧
          seqMask < sealer.nextSeq) ∨
        (after.blocksEncrypted < blockLimit ∧ sealer.nextSeq ≤ seqMask ∧
          after.nextSeq = sealer.nextSeq + 1 ∧
          (returned = .error .encryptFailed ∨
            ∃ ctAndTag, returned = .ok ((Nonce.new sealer.direction sealer.nextSeq).wireSuffix ++ ctAndTag) ∧
              encrypt (Nonce.new sealer.direction sealer.nextSeq).toNonce12 (packet header frag) =
                some ctAndTag))) := by
  intro after returned
  simp only [after, returned]
  unfold sealDatagram
  by_cases full : blockLimit ≤ sealer.blocksEncrypted + blocks header frag
  · rw [if_pos full]
    exact ⟨rfl, rfl, .inl ⟨rfl, rfl, full⟩⟩
  · rw [if_neg full]
    unfold nextNonce
    by_cases spent : seqMask < sealer.nextSeq
    · simp [spent]
    · simp only [if_neg spent]
      have room := UInt64.not_le.mp full
      have left := UInt64.not_lt.mp spent
      cases taken : encrypt (Nonce.new sealer.direction sealer.nextSeq).toNonce12 (packet header frag) with
      | none => exact ⟨rfl, rfl, .inr (.inr ⟨room, left, rfl, .inl rfl⟩)⟩
      | some ctAndTag => exact ⟨rfl, rfl, .inr (.inr ⟨room, left, rfl, .inr ⟨ctAndTag, rfl, rfl⟩⟩)⟩

end MoshSealer

end MoshModel
