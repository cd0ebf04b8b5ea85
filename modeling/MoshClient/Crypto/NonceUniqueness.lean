import MoshClient.Crypto.Sealer
import MoshClient.Library.History
import Mathlib.Data.List.Induction
import Mathlib.Data.List.Nodup

namespace MoshModel

structure SealCall where
  direction : Direction
  header : PacketHeader
  frag : Bytes
deriving DecidableEq

/-- A call of `seal`: the block counter it left, and what it returned. -/
structure SealRecord where
  call : SealCall
  blocks : UInt64
  returned : Except MoshCryptoError Bytes

def SealRecord.nonce (record : SealRecord) : Option Nonce :=
  match record.returned with
  | .ok datagram => some (Nonce.fromWireSuffix datagram)
  | .error _ => none

theorem SealRecord.nonce_error {record : SealRecord} {e : MoshCryptoError}
    (failed : record.returned = .error e) : record.nonce = none := by
  rw [SealRecord.nonce, failed]

theorem SealRecord.nonce_ok {record : SealRecord} {nonce : Nonce} {ctAndTag : Bytes}
    (ok : record.returned = .ok (nonce.wireSuffix ++ ctAndTag)) : record.nonce = some nonce := by
  rw [SealRecord.nonce, ok]
  exact congrArg some (nonce.fromWireSuffix_wireSuffix ctAndTag)

def SealRecord.Exhausted (record : SealRecord) : Prop :=
  record.returned = .error .sequenceExhausted ∨ record.returned = .error .sessionExhausted

/-- The two sealers under one key, one to a direction, and all calls made on them. -/
structure SealSession where
  sealers : Direction → MoshSealer
  records : List SealRecord

namespace SealSession

def new : SealSession := { sealers := MoshSealer.new, records := [] }

def call (encrypt : Aead) (session : SealSession) (call : SealCall) : SealSession :=
  let outcome := (session.sealers call.direction).sealDatagram encrypt call.header call.frag
  { sealers := fun direction => if direction = call.direction then outcome.2 else session.sealers direction,
    records := session.records ++
      [{ call := call, blocks := outcome.2.blocksEncrypted, returned := outcome.1 }] }

def callAll (encrypt : Aead) (calls : List SealCall) : SealSession := calls.foldl (call encrypt) new

/-- The blocks that the calls in one direction try to encrypt, refused or not. -/
def attempted (direction : Direction) (calls : List SealCall) : Nat :=
  ((calls.filter fun call => call.direction = direction).map fun call =>
    (MoshSealer.blocks call.header call.frag).toNat).sum

theorem attempted_append (direction : Direction) (calls : List SealCall) (call : SealCall) :
    attempted direction (calls ++ [call]) = attempted direction calls +
      if call.direction = direction then (MoshSealer.blocks call.header call.frag).toNat else 0 := by
  unfold attempted
  by_cases same : call.direction = direction <;> simp [same]

structure Sealed (encrypt : Aead) (record : SealRecord) (nonce : Nonce) : Prop where
  bit : nonce.value >>> 63 = record.call.direction.bit
  bounded : nonce.seq.toNat < 2 ^ 63
  counted : record.blocks < blockLimit
  encrypted : ∃ ctAndTag, record.returned = .ok (nonce.wireSuffix ++ ctAndTag) ∧
    encrypt nonce.toNonce12 (MoshSealer.packet record.call.header record.call.frag) = some ctAndTag

structure Sound (encrypt : Aead) (calls : List SealCall) (session : SealSession) : Prop where
  direction : ∀ direction, (session.sealers direction).direction = direction
  blocks : ∀ direction,
    (session.sealers direction).blocksEncrypted.toNat = attempted direction calls
  ok : ∀ record ∈ session.records, ∀ nonce, record.nonce = some nonce → Sealed encrypt record nonce
  spent : ∀ record ∈ session.records, ∀ nonce, record.nonce = some nonce →
    nonce.seq < (session.sealers record.call.direction).nextSeq
  ascending : session.records.Pairwise fun earlier later =>
    earlier.call.direction = later.call.direction → ∀ first second,
      earlier.nonce = some first → later.nonce = some second → first.seq < second.seq
  exhausted : ∀ record ∈ session.records, record.Exhausted →
    seqMask < (session.sealers record.call.direction).nextSeq ∨
      blockLimit ≤ (session.sealers record.call.direction).blocksEncrypted
  permanent : session.records.Pairwise fun earlier later =>
    earlier.call.direction = later.call.direction → earlier.Exhausted → ∃ e, later.returned = .error e

theorem Sound.start (encrypt : Aead) : Sound encrypt [] new :=
  ⟨fun _ => rfl, fun _ => rfl, by simp [new], by simp [new], by simp [new], by simp [new], by simp [new]⟩

end SealSession

theorem sealDatagram_record (encrypt : Aead) {sealer : MoshSealer} {call : SealCall}
    (own : sealer.direction = call.direction)
    (bound : sealer.blocksEncrypted.toNat + (MoshSealer.blocks call.header call.frag).toNat < 2 ^ 64) :
    let outcome := sealer.sealDatagram encrypt call.header call.frag
    let record : SealRecord := { call := call, blocks := outcome.2.blocksEncrypted, returned := outcome.1 }
    outcome.2.direction = call.direction ∧
      outcome.2.blocksEncrypted.toNat =
        sealer.blocksEncrypted.toNat + (MoshSealer.blocks call.header call.frag).toNat ∧
      sealer.blocksEncrypted ≤ outcome.2.blocksEncrypted ∧ sealer.nextSeq ≤ outcome.2.nextSeq ∧
      (∀ nonce, record.nonce = some nonce → SealSession.Sealed encrypt record nonce ∧
        nonce.seq = sealer.nextSeq ∧ nonce.seq < outcome.2.nextSeq) ∧
      (record.Exhausted → seqMask < outcome.2.nextSeq ∨ blockLimit ≤ outcome.2.blocksEncrypted) ∧
      (seqMask < sealer.nextSeq ∨ blockLimit ≤ sealer.blocksEncrypted →
        ∃ e, record.returned = .error e) := by
  obtain ⟨direction, blocks, outcomes⟩ := sealer.sealDatagram_cases encrypt call.header call.frag
  generalize sealer.sealDatagram encrypt call.header call.frag = outcome at *
  simp only
  generalize recordEq : ({ call := call, blocks := outcome.2.blocksEncrypted, returned := outcome.1 } :
    SealRecord) = record
  have recorded : record.returned = outcome.1 := by rw [← recordEq]
  have counted : record.blocks = outcome.2.blocksEncrypted := by rw [← recordEq]
  have called : record.call = call := by rw [← recordEq]
  rw [← recorded] at outcomes ⊢
  have total : outcome.2.blocksEncrypted.toNat =
      sealer.blocksEncrypted.toNat + (MoshSealer.blocks call.header call.frag).toNat := by
    rw [blocks, UInt64.toNat_add, Nat.mod_eq_of_lt bound]
  have grown : sealer.blocksEncrypted ≤ outcome.2.blocksEncrypted :=
    UInt64.le_iff_toNat_le.mpr (by omega)
  refine ⟨direction.trans own, total, grown, ?_⟩
  rcases outcomes with ⟨returned, kept, full⟩ | ⟨returned, kept, spent⟩ | ⟨room, left, next, result⟩
  · have none : record.nonce = none := SealRecord.nonce_error returned
    exact ⟨by grind, by simp [none], fun _ => .inr full, fun _ => ⟨_, returned⟩⟩
  · have none : record.nonce = none := SealRecord.nonce_error returned
    exact ⟨by grind, by simp [none], fun _ => .inl (kept ▸ spent), fun _ => ⟨_, returned⟩⟩
  · have room_before : ¬(seqMask < sealer.nextSeq ∨ blockLimit ≤ sealer.blocksEncrypted) := by
      rintro (spent | full)
      · exact absurd spent (UInt64.not_lt.mpr left)
      · exact absurd (UInt64.le_trans full grown) (UInt64.not_le.mpr room)
    have rises : sealer.nextSeq < sealer.nextSeq + 1 := by
      have small := Nonce.toNat_lt_of_le_seqMask left
      rw [UInt64.lt_iff_toNat_lt, UInt64.toNat_add, Nat.mod_eq_of_lt (by simp only [UInt64.toNat_one]; omega)]
      exact Nat.lt_succ_self _
    refine ⟨by grind, ?_, ?_, fun refused => absurd refused room_before⟩
    · intro nonce found
      rcases result with failed | ⟨ctAndTag, ok, encrypted⟩
      · rw [SealRecord.nonce_error failed] at found
        cases found
      · rw [SealRecord.nonce_ok ok] at found
        obtain rfl := Option.some.inj found
        have seq := Nonce.new_seq sealer.direction left
        refine ⟨⟨?_, Nonce.seq_toNat_lt _, counted ▸ room, ctAndTag, ok, called ▸ encrypted⟩, seq, ?_⟩
        · rw [Nonce.new_bit _ left, own, called]
        · rw [seq, next]
          exact rises
    · intro exhausted
      rcases result with failed | ⟨ctAndTag, ok, -⟩
      · rcases exhausted with other | other <;> rw [failed] at other <;> cases other
      · rcases exhausted with other | other <;> rw [ok] at other <;> cases other

namespace SealSession

theorem Sound.call {encrypt : Aead} {calls : List SealCall} {session : SealSession}
    (sound : Sound encrypt calls session) (next : SealCall)
    (bound : attempted next.direction (calls ++ [next]) < 2 ^ 64) :
    Sound encrypt (calls ++ [next]) (session.call encrypt next) := by
  rw [attempted_append, if_pos rfl, ← sound.blocks] at bound
  obtain ⟨own, total, grown, risen, nonces, exhausted, refused⟩ :=
    sealDatagram_record encrypt (sound.direction next.direction) bound
  generalize outcomeEq : (session.sealers next.direction).sealDatagram encrypt next.header next.frag =
    outcome at *
  have called : session.call encrypt next =
      { sealers := fun direction =>
          if direction = next.direction then outcome.2 else session.sealers direction,
        records := session.records ++
          [{ call := next, blocks := outcome.2.blocksEncrypted, returned := outcome.1 }] } := by
    rw [SealSession.call, outcomeEq]
  rw [called]
  -- each counter of the session only rises
  have later : ∀ direction,
      (session.sealers direction).nextSeq ≤
          (if direction = next.direction then outcome.2 else session.sealers direction).nextSeq ∧
        (session.sealers direction).blocksEncrypted ≤
          (if direction = next.direction then outcome.2 else session.sealers direction).blocksEncrypted := by
    intro direction
    by_cases same : direction = next.direction
    · subst same
      simp only [if_pos]
      exact ⟨risen, grown⟩
    · rw [if_neg same]
      exact ⟨UInt64.le_refl _, UInt64.le_refl _⟩
  constructor
  · intro direction
    by_cases same : direction = next.direction
    · subst same
      simp only [if_true, own]
    · simp only [if_neg same, sound.direction]
  · intro direction
    rw [attempted_append]
    by_cases same : direction = next.direction
    · subst same
      simp only [if_pos, total, sound.blocks]
    · simp only [if_neg same, if_neg (Ne.symm same), sound.blocks, Nat.add_zero]
  · intro record member nonce found
    rcases History.mem_snoc.mp member with member | rfl
    · exact sound.ok record member nonce found
    · exact (nonces nonce found).1
  · intro record member nonce found
    rcases History.mem_snoc.mp member with member | rfl
    · exact UInt64.lt_of_lt_of_le (sound.spent record member nonce found) (later _).1
    · simp only [if_pos]
      exact (nonces nonce found).2.2
  · refine History.pairwise_snoc.mpr ⟨sound.ascending, ?_⟩
    intro earlier member same first second foundFirst foundSecond
    have before := sound.spent earlier member first foundFirst
    rw [show earlier.call.direction = next.direction from same] at before
    rw [(nonces second foundSecond).2.1]
    exact before
  · intro record member spent
    rcases History.mem_snoc.mp member with member | rfl
    · exact (sound.exhausted record member spent).imp
        (fun beyond => UInt64.lt_of_lt_of_le beyond (later _).1)
        (fun full => UInt64.le_trans full (later _).2)
    · simp only [if_pos]
      exact exhausted spent
  · refine History.pairwise_snoc.mpr ⟨sound.permanent, ?_⟩
    intro earlier member same spent
    have beyond := sound.exhausted earlier member spent
    rw [show earlier.call.direction = next.direction from same] at beyond
    exact refused beyond

theorem callAll_sound (encrypt : Aead) (calls : List SealCall)
    (bound : ∀ direction, attempted direction calls < 2 ^ 64) :
    Sound encrypt calls (callAll encrypt calls) := by
  induction calls using List.reverseRecOn with
  | nil => exact Sound.start encrypt
  | append_singleton calls next ih =>
    have before : ∀ direction, attempted direction calls < 2 ^ 64 := by
      intro direction
      have := bound direction
      rw [attempted_append] at this
      omega
    rw [callAll, List.foldl_append]
    exact (ih before).call next (bound next.direction)

/-- Nonces differ across the two directions by bit 63 and within one by their sequence numbers. -/
theorem Sound.distinct {encrypt : Aead} {calls : List SealCall} {session : SealSession}
    (sound : Sound encrypt calls session) :
    ((session.records.filterMap SealRecord.nonce).map Nonce.toNonce12).Nodup := by
  refine List.Nodup.map (fun _ _ => Nonce.toNonce12_injective) ?_
  refine List.pairwise_filterMap.mpr (sound.ascending.imp_of_mem ?_)
  intro earlier later earlierMember laterMember rising first foundFirst second foundSecond same
  subst same
  by_cases sameDirection : earlier.call.direction = later.call.direction
  · exact absurd (rising sameDirection first first foundFirst foundSecond) (UInt64.lt_irrefl _)
  · have bits := (sound.ok earlier earlierMember first foundFirst).bit.symm.trans
      (sound.ok later laterMember first foundSecond).bit
    generalize earlier.call.direction = left at *
    generalize later.call.direction = right at *
    cases left <;> cases right <;> simp [Direction.bit] at *

end SealSession

open SealSession

theorem nonce_uniqueness (encrypt : Aead) (calls : List SealCall)
    (bound : ∀ direction, attempted direction calls < 2 ^ 64) :
    let records := (callAll encrypt calls).records
    ((records.filterMap SealRecord.nonce).map Nonce.toNonce12).Nodup ∧
      (∀ record ∈ records, ∀ nonce, record.nonce = some nonce → Sealed encrypt record nonce) ∧
      (records.Pairwise fun earlier later => earlier.call.direction = later.call.direction →
        ∀ first second, earlier.nonce = some first → later.nonce = some second →
          first.seq < second.seq) ∧
      records.Pairwise fun earlier later => earlier.call.direction = later.call.direction →
        earlier.Exhausted → ∃ e, later.returned = .error e := by
  have sound := callAll_sound encrypt calls bound
  exact ⟨sound.distinct, sound.ok, sound.ascending, sound.permanent⟩

/-- AES-128-OCB3 under the key 00 01 .. 0F, on three packets; it rejects the rest. -/
def sampleAead : Aead := fun nonce packet =>
  if nonce = [0, 0, 0, 0, 0, 0, 0, 0, 0, 0, 0, 0] ∧ packet = [0, 1, 255, 255, 104, 105] then
    some [43, 55, 43, 88, 192, 116, 168, 115, 192, 37, 230, 34, 210, 239, 62, 3, 74, 4, 107, 206, 90, 86]
  else if nonce = [0, 0, 0, 0, 128, 0, 0, 0, 0, 0, 0, 0] ∧ packet = [0, 2, 0, 1] then
    some [125, 25, 174, 240, 147, 20, 66, 160, 253, 6, 35, 65, 107, 151, 85, 236, 140, 91, 135, 11]
  else if nonce = [0, 0, 0, 0, 0, 0, 0, 0, 0, 0, 0, 1] ∧ packet = [0, 3, 0, 2, 33] then
    some [216, 22, 25, 236, 176, 71, 65, 128, 158, 123, 25, 150, 195, 22, 103, 125, 28, 249, 89, 121, 186]
  else none

def sampleSealCalls : List SealCall :=
  [{ direction := .toServer, header := { timestamp := 1, timestampReply := 0xFFFF }, frag := [104, 105] },
    { direction := .toClient, header := { timestamp := 2, timestampReply := 1 }, frag := [] },
    { direction := .toServer, header := { timestamp := 3, timestampReply := 2 }, frag := [33] }]

theorem nonce_uniqueness_three :
    (∀ direction, attempted direction sampleSealCalls < 2 ^ 64) ∧
      ((callAll sampleAead sampleSealCalls).records.filterMap SealRecord.nonce).length = 3 ∧
      (((callAll sampleAead sampleSealCalls).records.filterMap SealRecord.nonce).map
        Nonce.toNonce12).Nodup := by
  have bound : ∀ direction, attempted direction sampleSealCalls < 2 ^ 64 := by
    intro direction
    cases direction <;> decide
  exact ⟨bound, by decide +kernel, (nonce_uniqueness sampleAead sampleSealCalls bound).1⟩

end MoshModel
