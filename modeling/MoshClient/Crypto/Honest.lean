import MoshClient.Crypto.DatagramCodec

namespace MoshModel

/-- An AEAD that opens whatever it sealed, under a tag of 16 bytes; it may refuse a packet. -/
structure SoundAead (encrypt : Aead) (decrypt : AeadOpen) : Prop where
  inverse : ∀ nonce packet ct, encrypt nonce packet = some ct → decrypt nonce ct = some packet
  expands : ∀ nonce packet ct, encrypt nonce packet = some ct → ct.length = packet.length + tagLen

theorem ExactAead.sound {encrypt : Bytes → Bytes → Bytes} {decrypt : AeadOpen} (exact : ExactAead encrypt decrypt) :
    SoundAead (sealing encrypt) decrypt := by
  constructor
  · intro nonce packet ct sealed
    exact (exact.inverse nonce ct packet).mpr (Option.some.inj sealed).symm
  · intro nonce packet ct sealed
    rw [← Option.some.inj sealed]
    exact exact.expands nonce packet

theorem MoshSealer.openDatagram_sealed {encrypt : Aead} {decrypt : AeadOpen} (aead : SoundAead encrypt decrypt)
    (opener : MoshOpener) (sealer : MoshSealer) (header : PacketHeader) (payload : Bytes) {datagram : Bytes}
    (sent : (sealer.sealDatagram encrypt header payload).1 = .ok datagram) :
    opener.openDatagram decrypt datagram =
      if sealer.direction = opener.peerDirection then .ok (sealer.nextSeq, header, payload)
      else .error .directionMismatch := by
  obtain ⟨-, -, outcomes⟩ := sealer.sealDatagram_cases encrypt header payload
  rw [sent] at outcomes
  rcases outcomes with ⟨refused, -⟩ | ⟨refused, -⟩ | ⟨-, bound, -, failed | ⟨ct, ok, encrypted⟩⟩
  · cases refused
  · cases refused
  · cases failed
  · cases ok
    have suffix := (Nonce.new sealer.direction sealer.nextSeq).wireSuffix_length
    have long := aead.expands _ _ _ encrypted
    have restored := Nonce.fromWireSuffix_wireSuffix (Nonce.new sealer.direction sealer.nextSeq) []
    rw [List.append_nil] at restored
    unfold MoshOpener.openDatagram
    rw [if_neg (by rw [List.length_append, suffix, long]; simp only [minDatagramLen, wireNonceLen]; omega)]
    dsimp only
    rw [show wireNonceLen = 8 from rfl, List.take_left' suffix, List.drop_left' suffix, restored,
      Nonce.new_direction sealer.direction bound, Nonce.new_seq sealer.direction bound, aead.inverse _ _ _ encrypted]
    dsimp only
    rw [MoshSealer.packet, PacketHeader.parse_write]
    by_cases own : sealer.direction = opener.peerDirection
    · rw [if_neg (not_not.mpr own), if_pos own]
    · rw [if_pos own, if_neg own]

end MoshModel
