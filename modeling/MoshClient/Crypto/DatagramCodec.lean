import MoshClient.Crypto.Opener
import MoshClient.Fragment.Framing

namespace MoshModel

/-- An AEAD that opens exactly what it sealed, under a tag of 16 bytes. -/
structure ExactAead (encrypt : Bytes → Bytes → Bytes) (decrypt : AeadOpen) : Prop where
  inverse : ∀ nonce ct packet, decrypt nonce ct = some packet ↔ ct = encrypt nonce packet
  expands : ∀ nonce packet, (encrypt nonce packet).length = packet.length + tagLen

def sealing (encrypt : Bytes → Bytes → Bytes) : Aead := fun nonce packet => some (encrypt nonce packet)

/-- The bytes of a datagram, from what it carries. -/
def datagramOf (encrypt : Bytes → Bytes → Bytes) (direction : Direction) (seq : UInt64) (header : PacketHeader)
    (frag : Fragment) : Bytes :=
  let nonce := Nonce.new direction seq
  nonce.wireSuffix ++ encrypt nonce.toNonce12 (MoshSealer.packet header frag.tostring)

variable {encrypt : Bytes → Bytes → Bytes} {decrypt : AeadOpen}

theorem openDatagram_datagramOf (exact : ExactAead encrypt decrypt) (opener : MoshOpener) (direction : Direction)
    {seq : UInt64} (bound : seq ≤ seqMask) (header : PacketHeader) (frag : Fragment) :
    opener.openDatagram decrypt (datagramOf encrypt direction seq header frag) =
      if direction = opener.peerDirection then .ok (seq, header, frag.tostring)
      else .error .directionMismatch := by
  have suffix := (Nonce.new direction seq).wireSuffix_length
  have long := exact.expands (Nonce.new direction seq).toNonce12 (MoshSealer.packet header frag.tostring)
  have restored := Nonce.fromWireSuffix_wireSuffix (Nonce.new direction seq) []
  rw [List.append_nil] at restored
  have opened := (exact.inverse (Nonce.new direction seq).toNonce12 _
    (MoshSealer.packet header frag.tostring)).mpr rfl
  unfold MoshOpener.openDatagram datagramOf
  rw [if_neg (by rw [List.length_append, suffix, long]; simp only [minDatagramLen, wireNonceLen]; omega)]
  dsimp only
  rw [show wireNonceLen = 8 from rfl, List.take_left' suffix, List.drop_left' suffix, restored,
    Nonce.new_direction direction bound, Nonce.new_seq direction bound, opened]
  dsimp only
  rw [MoshSealer.packet, PacketHeader.parse_write]
  by_cases own : direction = opener.peerDirection
  · rw [if_neg (not_not.mpr own), if_pos own]
  · rw [if_pos own, if_neg own]

theorem datagramOf_openDatagram (exact : ExactAead encrypt decrypt) {opener : MoshOpener}
    {datagram bytes : Bytes} {seq : UInt64} {header : PacketHeader} {frag : Fragment}
    (opened : opener.openDatagram decrypt datagram = .ok (seq, header, bytes))
    (parsed : Fragment.parse bytes = .ok frag) :
    datagramOf encrypt opener.peerDirection seq header frag = datagram := by
  unfold MoshOpener.openDatagram at opened
  split at opened
  · cases opened
  · rename_i long
    simp only [minDatagramLen, tagLen] at long
    have whole : (datagram.take wireNonceLen).length = wireNonceLen := by
      rw [List.length_take]
      omega
    have suffix := Nonce.wireSuffix_fromWireSuffix whole
    dsimp only at opened
    generalize Nonce.fromWireSuffix (datagram.take wireNonceLen) = nonce at opened suffix
    split at opened
    · cases opened
    · rename_i peer
      cases decrypted : decrypt nonce.toNonce12 (datagram.drop wireNonceLen) with
      | none =>
        rw [decrypted] at opened
        cases opened
      | some packet =>
        rw [decrypted] at opened
        dsimp only at opened
        cases split : PacketHeader.parse packet with
        | none =>
          rw [split] at opened
          cases opened
        | some pair =>
          rw [split] at opened
          cases opened
          have written := PacketHeader.write_parse split
          have sealed := (exact.inverse nonce.toNonce12 _ packet).mp decrypted
          unfold datagramOf MoshSealer.packet
          rw [← not_not.mp peer, nonce.new_of_parts, (Fragment.tostring_parse parsed).1]
          dsimp only
          rw [written, ← sealed, suffix, List.take_append_drop]

theorem sealDatagram_datagramOf (encrypt : Bytes → Bytes → Bytes) (sealer : MoshSealer)
    (left : sealer.nextSeq ≤ seqMask) (header : PacketHeader) (frag : Fragment) :
    (sealer.sealDatagram (sealing encrypt) header frag.tostring).1 =
      if blockLimit ≤ sealer.blocksEncrypted + MoshSealer.blocks header frag.tostring
      then .error .sessionExhausted
      else .ok (datagramOf encrypt sealer.direction sealer.nextSeq header frag) := by
  unfold MoshSealer.sealDatagram
  dsimp only
  split
  · rfl
  · unfold MoshSealer.nextNonce
    rw [if_neg (UInt64.not_lt.mpr left)]
    rfl

/-- Sealing and opening are inverse over both layers, for every datagram and every fragment. -/
theorem datagram_codec_inverse (encrypt : Bytes → Bytes → Bytes) (decrypt : AeadOpen)
    (exact : ExactAead encrypt decrypt) :
    (∀ (sealer : MoshSealer) (header : PacketHeader) (frag : Fragment), sealer.nextSeq ≤ seqMask → frag.OnWire →
      let sent := (sealer.sealDatagram (sealing encrypt) header frag.tostring).1
      (sent = .error .sessionExhausted ∧
          blockLimit ≤ sealer.blocksEncrypted + MoshSealer.blocks header frag.tostring) ∨
        ∃ datagram bytes, sent = .ok datagram ∧
          datagram = datagramOf encrypt sealer.direction sealer.nextSeq header frag ∧
          MoshOpener.openDatagram decrypt ⟨sealer.direction⟩ datagram = .ok (sealer.nextSeq, header, bytes) ∧
          Fragment.parse bytes = .ok frag ∧
          MoshOpener.openDatagram decrypt ⟨sealer.direction.opposite⟩ datagram = .error .directionMismatch) ∧
      ∀ (opener : MoshOpener) (datagram bytes : Bytes) (seq : UInt64) (header : PacketHeader) (frag : Fragment),
        opener.openDatagram decrypt datagram = .ok (seq, header, bytes) → Fragment.parse bytes = .ok frag →
          datagramOf encrypt opener.peerDirection seq header frag = datagram := by
  constructor
  · intro sealer header frag left onWire sent
    have result := sealDatagram_datagramOf encrypt sealer left header frag
    by_cases full : blockLimit ≤ sealer.blocksEncrypted + MoshSealer.blocks header frag.tostring
    · rw [if_pos full] at result
      exact .inl ⟨result, full⟩
    · rw [if_neg full] at result
      refine .inr ⟨_, frag.tostring, result, rfl, ?_, Fragment.parse_tostring frag onWire, ?_⟩
      · rw [openDatagram_datagramOf exact _ _ left, if_pos rfl]
      · rw [openDatagram_datagramOf exact _ _ left, if_neg]
        cases sealer.direction <;> decide
  · intro opener datagram bytes seq header frag opened parsed
    exact datagramOf_openDatagram exact opened parsed

def sampleNonce : Nonce := Nonce.new .toServer 7
def sampleHeader : PacketHeader := { timestamp := 1, timestampReply := 0xFFFF }
def sampleFragment : Fragment := { id := 5, fragmentNum := 3, final := true, contents := [104, 105] }
def samplePacket : Bytes := [0, 1, 255, 255, 0, 0, 0, 0, 0, 0, 0, 5, 128, 3, 104, 105]
def sampleCt : Bytes :=
  [230, 57, 11, 123, 143, 113, 213, 55, 127, 139, 190, 112, 3, 54, 232, 164,
    178, 90, 51, 102, 122, 158, 125, 194, 211, 177, 41, 135, 43, 149, 101, 32]
def zeroTag : Bytes := List.replicate tagLen 0

/-- AES-128-OCB3 under the key 00 01 .. 0F on one packet; any other stands in the clear under a zero tag. -/
def sampleEncrypt (nonce packet : Bytes) : Bytes :=
  if nonce = sampleNonce.toNonce12 ∧ packet = samplePacket then sampleCt else packet ++ zeroTag

def sampleDecrypt : AeadOpen := fun nonce ct =>
  if nonce = sampleNonce.toNonce12 ∧ ct = sampleCt then some samplePacket
  else if nonce = sampleNonce.toNonce12 ∧ ct = samplePacket ++ zeroTag then none
  else if ct.drop (ct.length - tagLen) = zeroTag then some (ct.take (ct.length - tagLen)) else none

theorem clear_iff (ct packet : Bytes) :
    (ct.drop (ct.length - tagLen) = zeroTag ∧ ct.take (ct.length - tagLen) = packet) ↔ ct = packet ++ zeroTag := by
  constructor
  · rintro ⟨tag, rfl⟩
    rw [← tag, List.take_append_drop]
  · rintro rfl
    have cut : (packet ++ zeroTag).length - tagLen = packet.length := by
      simp [zeroTag]
    rw [cut]
    exact ⟨List.drop_left, List.take_left⟩

theorem clear_open (ct packet : Bytes) :
    (if ct.drop (ct.length - tagLen) = zeroTag then some (ct.take (ct.length - tagLen)) else none) = some packet ↔
      ct = packet ++ zeroTag := by
  rw [← clear_iff]
  split
  · rename_i tag
    simp [tag]
  · rename_i tag
    simp [tag]

theorem sampleCt_tagged (packet : Bytes) : sampleCt ≠ packet ++ zeroTag := by
  intro same
  have tag := ((clear_iff sampleCt packet).mpr same).1
  revert tag
  decide

theorem sampleDecrypt_iff (nonce ct packet : Bytes) :
    sampleDecrypt nonce ct = some packet ↔ ct = sampleEncrypt nonce packet := by
  unfold sampleDecrypt sampleEncrypt
  by_cases here : nonce = sampleNonce.toNonce12
  · simp only [here, true_and]
    by_cases known : packet = samplePacket
    · subst known
      rw [if_pos rfl]
      split
      · rename_i same
        simp [same]
      · rename_i other
        constructor
        · intro opened
          by_cases plain : ct = samplePacket ++ zeroTag
          · rw [if_pos plain] at opened
            cases opened
          · rw [if_neg plain, clear_open] at opened
            exact absurd opened plain
        · exact fun same => absurd same other
    · rw [if_neg known]
      split
      · rename_i same
        subst same
        exact ⟨fun packets => absurd (Option.some.inj packets).symm known,
          fun same => absurd same (sampleCt_tagged packet)⟩
      · split
        · rename_i plain
          rw [plain, List.append_cancel_right_eq]
          exact ⟨nofun, fun same => absurd same.symm known⟩
        · exact clear_open ct packet
  · simp only [here, false_and, if_false]
    exact clear_open ct packet

theorem sampleEncrypt_exact : ExactAead sampleEncrypt sampleDecrypt := by
  constructor
  · exact sampleDecrypt_iff
  · intro nonce packet
    unfold sampleEncrypt
    split
    · rename_i known
      rw [known.2]
      rfl
    · rw [List.length_append, zeroTag, List.length_replicate]

theorem datagram_codec_inverse_sample :
    ∃ datagram bytes,
      (MoshSealer.sealDatagram (sealing sampleEncrypt) ⟨.toServer, 7, 0⟩ sampleHeader sampleFragment.tostring).1 =
        .ok datagram ∧ datagram.drop 8 = sampleCt ∧
      MoshOpener.openDatagram sampleDecrypt ⟨.toServer⟩ datagram = .ok (7, sampleHeader, bytes) ∧
      Fragment.parse bytes = .ok sampleFragment := by
  rcases (datagram_codec_inverse sampleEncrypt sampleDecrypt sampleEncrypt_exact).1 ⟨.toServer, 7, 0⟩ sampleHeader
    sampleFragment (by decide) ⟨by decide, by decide⟩ with ⟨-, full⟩ | ⟨datagram, bytes, sent, encoded, opened, parsed, -⟩
  · exact absurd full (by decide)
  · refine ⟨datagram, bytes, sent, ?_, opened, parsed⟩
    rw [encoded]
    decide

end MoshModel
