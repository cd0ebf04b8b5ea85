import MoshClient.Fragment.Integrity
import MoshClient.Crypto.DatagramCodec
import MoshClient.Library.Pieces

namespace MoshModel

namespace Fragmenter

/-- What the slicing loop does from an index on: a fragment too many, or one for each piece. -/
inductive Sliced (budget index : Nat) (rest : Bytes) : Except FragmentError (List Fragment) → Prop
  | tooMany (beyond : maxFragmentIndex + 1 < index + Pieces.count budget rest.length) :
      Sliced budget index rest (.error .indexTooLarge)
  | cut {fragments : List Fragment}
      (within : index + Pieces.count budget rest.length ≤ maxFragmentIndex + 1)
      (length : fragments.length = Pieces.count budget rest.length)
      (sizes : ∀ frag ∈ fragments, frag.contents.length ≤ budget ∧
        (frag.final = false → frag.contents.length = budget)) :
      Sliced budget index rest (.ok fragments)

theorem sliceFrom_sliced (id : Nat) {budget : Nat} (positive : 0 < budget) (index : Nat) (rest : Bytes) :
    Sliced budget index rest (sliceFrom id budget index rest) := by
  induction index, rest using sliceFrom.induct budget with
  | case1 index rest beyond =>
    have some_left : 1 ≤ Pieces.count budget rest.length := le_max_left _ _
    rw [sliceFrom, if_pos beyond]
    exact .tooMany (by omega)
  | case2 index rest inside more ih =>
    have counted := Pieces.count_of_lt positive more
    rw [sliceFrom, if_neg inside, if_pos more]
    generalize sliceFrom id budget (index + 1) (rest.drop budget) = result at *
    cases ih with
    | tooMany beyond =>
      rw [List.length_drop] at beyond
      exact .tooMany (by omega)
    | cut within length sizes =>
      rw [List.length_drop] at within length
      apply Sliced.cut
      · omega
      · rw [List.length_cons, length, counted]
      · intro frag member
        rcases List.mem_cons.mp member with rfl | member
        · have whole : (rest.take budget).length = budget := List.length_take_of_le (Nat.le_of_lt more)
          exact ⟨Nat.le_of_eq whole, fun _ => whole⟩
        · exact sizes frag member
  | case3 index rest inside enough =>
    have counted := Pieces.count_of_le positive (Nat.le_of_not_lt enough)
    rw [sliceFrom, if_neg inside, if_neg enough]
    apply Sliced.cut
    · omega
    · rw [counted, List.length_singleton]
    · intro frag member
      rw [List.mem_singleton.mp member]
      exact ⟨Nat.le_of_not_lt enough, fun final => Bool.noConfusion final⟩

theorem makeFragments_sliced (zlib : Zlib) (fragmenter : Fragmenter) (inst : TransportInstruction) {mtu : Nat}
    (room : fragHeaderLen < mtu) :
    Sliced (mtu - fragHeaderLen) 0 (zlibCompress zlib inst.encode) (fragmenter.makeFragments zlib inst mtu).1 := by
  rw [makeFragments_eq zlib fragmenter inst room]
  exact sliceFrom_sliced _ (Nat.sub_pos_of_lt room) 0 _

theorem makeFragments_whole (zlib : Zlib) (fragmenter : Fragmenter) (inst : TransportInstruction) {mtu : Nat}
    {fragments : List Fragment} (made : (fragmenter.makeFragments zlib inst mtu).1 = .ok fragments) :
    WholeSet (fragmenter.nextId ⟨inst, mtu⟩) (zlibCompress zlib inst.encode) fragments := by
  by_cases room : fragHeaderLen < mtu
  · rw [makeFragments_eq zlib fragmenter inst room] at made
    exact sliceFrom_wholeSet _ _ _ _ made
  · rw [makeFragments_refused zlib fragmenter inst (Nat.le_of_not_lt room)] at made
    cases made

end Fragmenter

theorem Fragment.tostring_length (frag : Fragment) :
    frag.tostring.length = fragHeaderLen + frag.contents.length := by
  unfold tostring
  rw [List.length_append, List.length_append, BigEndian.encode_length, BigEndian.encode_length]
  rfl

/-- `Connection::ADDED_BYTES` and the OCB tag come out of the datagram's budget. -/
def fragmentMtu (mtu : Nat) : Nat := mtu - (12 + 16)

theorem MoshSealer.packet_length (header : PacketHeader) (frag : Bytes) :
    (packet header frag).length = 4 + frag.length := by
  unfold packet PacketHeader.write
  rw [List.length_append, List.length_append, BigEndian.encode_length, BigEndian.encode_length]

theorem MoshSealer.sealDatagram_length {encrypt : Aead}
    (expands : ∀ nonce packet ct, encrypt nonce packet = some ct → ct.length = packet.length + tagLen)
    (sealer : MoshSealer) (header : PacketHeader) (frag : Bytes) {datagram : Bytes}
    (sent : (sealer.sealDatagram encrypt header frag).1 = .ok datagram) :
    datagram.length = frag.length + (12 + 16) := by
  obtain ⟨-, -, outcomes⟩ := sealer.sealDatagram_cases encrypt header frag
  rw [sent] at outcomes
  rcases outcomes with ⟨refused, -⟩ | ⟨refused, -⟩ | ⟨-, -, -, failed | ⟨ct, ok, encrypted⟩⟩
  · cases refused
  · cases refused
  · cases failed
  · cases ok
    have long := expands _ _ _ encrypted
    rw [packet_length] at long
    rw [List.length_append, Nonce.wireSuffix_length, long]
    simp only [tagLen]
    omega

open Fragmenter

/-- Slicing keeps every budget: of the index, of a fragment under its header, and of the datagram that a
    session seals from it. -/
theorem slicing_respects_budget (zlib : Zlib) (fragmenter : Fragmenter) (inst : TransportInstruction) :
    (∀ mtu, fragHeaderLen < mtu →
      let payload := zlibCompress zlib inst.encode
      let needed := payload.length ⌈/⌉ (mtu - fragHeaderLen)
      let result := (fragmenter.makeFragments zlib inst mtu).1
      (result = .error .indexTooLarge ↔ 32768 < needed) ∧
        (needed ≤ 32768 → ∃ fragments id, result = .ok fragments ∧ fragments.length = max 1 needed ∧
          (∀ frag ∈ fragments, frag.id = id) ∧
          (∀ index (bound : index < fragments.length), fragments[index].fragmentNum = index ∧
            (fragments[index].final = true ↔ index + 1 = fragments.length)) ∧
          fragments.flatMap Fragment.contents = payload ∧
          ∀ frag ∈ fragments, frag.tostring.length ≤ mtu ∧ (frag.final = false → frag.tostring.length = mtu))) ∧
      ∀ mtu, 38 < mtu → ∀ (encrypt : Aead),
        (∀ nonce packet ct, encrypt nonce packet = some ct → ct.length = packet.length + tagLen) →
          ∀ fragments, (fragmenter.makeFragments zlib inst (fragmentMtu mtu)).1 = .ok fragments →
            ∀ frag ∈ fragments, ∀ (sealer : MoshSealer) (header : PacketHeader) (datagram : Bytes),
              (sealer.sealDatagram encrypt header frag.tostring).1 = .ok datagram → datagram.length ≤ mtu := by
  have sizes : ∀ mtu, fragHeaderLen < mtu → ∀ fragments,
      (fragmenter.makeFragments zlib inst mtu).1 = .ok fragments → ∀ frag ∈ fragments,
        frag.tostring.length ≤ mtu ∧ (frag.final = false → frag.tostring.length = mtu) := by
    intro mtu room fragments made frag member
    have sliced := fragmenter.makeFragments_sliced zlib inst room
    rw [made] at sliced
    cases sliced with
    | cut _ _ sizes =>
      obtain ⟨most, full⟩ := sizes frag member
      rw [frag.tostring_length]
      exact ⟨by omega, fun inner => by rw [full inner]; omega⟩
  constructor
  · intro mtu room payload needed result
    have counts : needed ≤ 32768 ↔ Pieces.count (mtu - fragHeaderLen) payload.length ≤ 32768 :=
      Pieces.ceilDiv_le_iff_count_le (by decide)
    have sliced : Sliced (mtu - fragHeaderLen) 0 payload (fragmenter.makeFragments zlib inst mtu).1 :=
      fragmenter.makeFragments_sliced zlib inst room
    cases made : (fragmenter.makeFragments zlib inst mtu).1 with
    | error e =>
      rw [made] at sliced
      cases sliced with
      | tooMany beyond =>
        have many : ¬needed ≤ 32768 := by
          rw [counts]
          simp only [maxFragmentIndex] at beyond
          omega
        exact ⟨iff_of_true made (Nat.lt_of_not_le many), fun few => absurd few many⟩
    | ok fragments =>
      have whole := fragmenter.makeFragments_whole zlib inst made
      have small := sizes mtu room fragments made
      rw [made] at sliced
      cases sliced with
      | cut within length _ =>
        have few : needed ≤ 32768 := by
          rw [counts]
          simp only [maxFragmentIndex] at within
          omega
        have answer : result ≠ .error .indexTooLarge := by
          rw [show result = .ok fragments from made]
          exact nofun
        refine ⟨iff_of_false answer (Nat.not_lt.mpr few), fun _ => ⟨fragments, _, made, length, whole.ids, ?_⟩⟩
        exact ⟨fun index bound => ⟨whole.numbered index bound, whole.final index bound⟩, whole.contents, small⟩
  · intro mtu room encrypt expands fragments made frag member sealer header datagram sent
    have long := MoshSealer.sealDatagram_length expands sealer header frag.tostring sent
    have fits := (sizes (fragmentMtu mtu) (by unfold fragmentMtu fragHeaderLen; omega) fragments made frag member).1
    unfold fragmentMtu at fits
    omega

/-- A stream of 24 bytes at a budget of 12: no empty fragment trails. -/
theorem slicing_respects_budget_exact :
    ∃ fragments, (Fragmenter.default.makeFragments sampleZlib (typed 1 1) 22).1 = .ok fragments ∧
      fragments.length = 2 ∧ ∀ frag ∈ fragments, frag.tostring.length ≤ 22 := by
  obtain ⟨-, made⟩ := (slicing_respects_budget sampleZlib Fragmenter.default (typed 1 1)).1 22 (by decide)
  obtain ⟨fragments, id, ok, length, -, -, -, sizes⟩ := made (by decide +kernel)
  refine ⟨fragments, ok, length.trans (by decide +kernel), fun frag member => (sizes frag member).1⟩

end MoshModel
