import MoshClient.Session.Exchange

namespace MoshModel

open Transition Fragmenter

/-- The datagram opens for one direction only, and what it carries is cut from these instructions, where it is
    a fragment at all. -/
def Carries (decrypt : AeadOpen) (direction : Direction) (sendings : List Sending) (bytes : Bytes) : Prop :=
  ∃ seq header payload,
    (∀ opener : MoshOpener, opener.openDatagram decrypt bytes =
      if direction = opener.peerDirection then .ok (seq, header, payload) else .error .directionMismatch) ∧
      ∀ frag, Fragment.parse payload = .ok frag → Cut sendings frag

theorem Carries.more {decrypt : AeadOpen} {direction : Direction} {sendings : List Sending} {bytes : Bytes}
    (carries : Carries decrypt direction sendings bytes) (later : List Sending) :
    Carries decrypt direction (sendings ++ later) bytes := by
  obtain ⟨seq, header, payload, opens, cut⟩ := carries
  exact ⟨seq, header, payload, opens, fun frag parsed => (cut frag parsed).more later⟩

theorem Carries.of_sealed {encrypt : Aead} {decrypt : AeadOpen} (aead : SoundAead encrypt decrypt)
    {sealer : MoshSealer} {header : PacketHeader} {payload datagram : Bytes} {sendings : List Sending}
    (sent : (sealer.sealDatagram encrypt header payload).1 = .ok datagram)
    (cut : ∀ frag, Fragment.parse payload = .ok frag → Cut sendings frag) :
    Carries decrypt sealer.direction sendings datagram :=
  ⟨sealer.nextSeq, header, payload, fun opener => sealer.openDatagram_sealed aead opener header payload sent, cut⟩

theorem cut_of_parse {sendings : List Sending} {frag : Fragment} (cut : Cut sendings frag) (onWire : frag.OnWire) :
    ∀ other, Fragment.parse frag.tostring = .ok other → Cut sendings other := by
  intro other parsed
  rw [Fragment.parse_tostring frag onWire] at parsed
  exact Except.ok.inj parsed ▸ cut

/-- What opens and parses at either end was cut at the other. -/
theorem Exchange.Authentic.cut {decrypt : AeadOpen} {opener : MoshOpener} {wire : List Bytes} {bytes : Bytes}
    (authentic : Exchange.Authentic decrypt opener wire bytes) {direction : Direction} {sendings : List Sending}
    (carries : ∀ bytes ∈ wire, Carries decrypt direction sendings bytes) {seq : UInt64} {header : PacketHeader}
    {payload : Bytes} {frag : Fragment} (opened : opener.openDatagram decrypt bytes = .ok (seq, header, payload))
    (parsed : Fragment.parse payload = .ok frag) : Cut sendings frag := by
  rcases authentic with member | ⟨error, refused⟩
  · obtain ⟨_, _, inner, opens, cut⟩ := carries bytes member
    rw [opens opener] at opened
    split at opened
    · cases opened
      exact cut frag parsed
    · cases opened
  · rw [refused] at opened
    cases opened

theorem MoshSealer.sealDatagram_direction (encrypt : Aead) (sealer : MoshSealer) (header : PacketHeader)
    (payload : Bytes) : (sealer.sealDatagram encrypt header payload).2.direction = sealer.direction :=
  (sealer.sealDatagram_cases encrypt header payload).1

namespace Peer

theorem sealAll_carries {encrypt : Aead} {decrypt : AeadOpen} (aead : SoundAead encrypt decrypt)
    (header : PacketHeader) {sendings : List Sending} (sealer : MoshSealer) (payloads : List Bytes)
    (cut : ∀ payload ∈ payloads, ∀ frag, Fragment.parse payload = .ok frag → Cut sendings frag) :
    (∀ bytes ∈ (sealAll encrypt header sealer payloads).1, Carries decrypt sealer.direction sendings bytes) ∧
      (sealAll encrypt header sealer payloads).2.direction = sealer.direction := by
  induction payloads generalizing sealer with
  | nil => exact ⟨fun _ member => absurd member List.not_mem_nil, rfl⟩
  | cons payload payloads ih =>
    have direction := sealer.sealDatagram_direction encrypt header payload
    obtain ⟨rest, last⟩ := ih (sealer.sealDatagram encrypt header payload).2
      fun other member => cut other (List.mem_cons_of_mem _ member)
    rw [direction] at rest last
    refine ⟨fun bytes member => ?_, last⟩
    rcases List.mem_append.mp member with first | later
    · cases sent : (sealer.sealDatagram encrypt header payload).1 with
      | error e =>
        rw [sent] at first
        exact absurd first List.not_mem_nil
      | ok datagram =>
        rw [sent] at first
        obtain rfl := List.mem_singleton.mp first
        exact .of_sealed aead sent (cut payload (List.mem_cons_self ..))
    · exact rest bytes later

end Peer

namespace WiredLoop

variable {D F : Type} [MoshDisplay D]

theorem next_direction (code : WireCode F) (wired : WiredLoop D F) (action : WireAction) :
    (wired.next code action).sealer.direction = wired.sealer.direction := by
  cases action with
  | inner action => rfl
  | send fragment now stamped =>
    unfold next sendFragment
    dsimp only
    generalize headerEq : PacketHeader.mk (timestamp16 stamped) ((wired.timing.reply now).1.getD noTimestamp) = header
    have kept := wired.sealer.sealDatagram_direction code.encrypt header fragment.tostring
    generalize wired.sealer.sealDatagram code.encrypt header fragment.tostring = sealed at kept ⊢
    obtain ⟨result, sealer⟩ := sealed
    cases result <;> exact kept
  | datagram bytes addresses now sampled =>
    unfold next handleDatagram
    dsimp only
    split
    · rfl
    · split
      · rfl
      · split <;> rfl

end WiredLoop

end MoshModel
