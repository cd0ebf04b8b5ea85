import MoshClient.Fragment.Reassembly

namespace MoshModel

open Collector Fragmenter

structure Arrival where
  frag : Fragment
  returned : Option TransportInstruction
deriving DecidableEq

def Arrival.entry (arrival : Arrival) : Entry Nat Fragment :=
  { id := arrival.frag.id, piece := arrival.frag, completed := arrival.returned.isSome }

namespace FragmentAssembly

def receiveAll (zlib : Zlib) (deliveries : List Fragment) : List Arrival × FragmentAssembly :=
  deliveries.foldl (fun run frag =>
    (run.1 ++ [{ frag := frag, returned := (run.2.addFragment zlib frag).1 }],
      (run.2.addFragment zlib frag).2)) ([], new)

theorem receiveAll_append (zlib : Zlib) (deliveries : List Fragment) (frag : Fragment) :
    receiveAll zlib (deliveries ++ [frag]) =
      ((receiveAll zlib deliveries).1 ++
          [{ frag := frag, returned := ((receiveAll zlib deliveries).2.addFragment zlib frag).1 }],
        ((receiveAll zlib deliveries).2.addFragment zlib frag).2) := by
  simp [receiveAll, List.foldl_append]

end FragmentAssembly

def partsUnder (sendings : List Sending) (id : Nat) : Set Fragment :=
  {frag | frag.id = id ∧ ∃ sending ∈ sendings, frag ∈ sending.fragments}

theorem TransportInstruction.fields_le (inst : TransportInstruction) :
    inst.diff.length ≤ inst.encode.length ∧ inst.chaff.length ≤ inst.encode.length := by
  simp only [encode, writeBytesField, List.length_append]
  omega

def FragmentCall.Fits (zlib : Zlib) (call : FragmentCall) : Prop :=
  call.inst.encode.length ≤ decompressLimit ∧
    (zlibCompress zlib call.inst.encode).length ≤ assemblyLimit

def Zlib.Inverse (zlib : Zlib) : Prop :=
  ∀ input : Bytes, input.length ≤ decompressLimit →
    zlibDecompress zlib (zlibCompress zlib input) = .ok input

/-- Inflating what was deflated gives the input back, as far as it is read. -/
def Zlib.Faithful (zlib : Zlib) : Prop :=
  ∀ (limit : Nat) (input : Bytes), zlib.inflate limit (zlib.compress input) = .ok (input.take limit)

theorem Zlib.Faithful.decompress {zlib : Zlib} (faithful : zlib.Faithful) (input : Bytes) :
    zlibDecompress zlib (zlibCompress zlib input) =
      if decompressLimit < input.length then .error .assemblyTooLarge else .ok input := by
  unfold zlibDecompress zlibCompress
  rw [faithful]
  dsimp only
  rw [List.length_take]
  by_cases large : decompressLimit < input.length
  · rw [if_pos large, if_pos (by omega)]
  · rw [if_neg large, if_neg (by omega), List.take_of_length_le (by omega)]

theorem Zlib.Faithful.inverse {zlib : Zlib} (faithful : zlib.Faithful) : zlib.Inverse := by
  intro input short
  rw [faithful.decompress, if_neg (Nat.not_lt.mpr short)]

theorem sendAll_calls (zlib : Zlib) (calls : List FragmentCall) :
    ∀ sending ∈ (sendAll zlib calls).1, sending.call ∈ calls := by
  induction calls using List.reverseRecOn with
  | nil => simp [sendAll]
  | append_singleton calls call ih =>
    rw [sendAll_append]
    intro sending member
    rcases History.mem_snoc.mp member with member | rfl
    · exact List.mem_append_left _ (ih sending member)
    · rw [send_call]
      simp

/-- One arrival, as the collector of the parts under each id sees it. -/
theorem addFragment_refines {zlib : Zlib} {calls : List FragmentCall} (inverse : zlib.Inverse)
    (steady : Steady calls) (fits : ∀ call ∈ calls, call.Fits zlib) {assembly : FragmentAssembly}
    {state : Collected Nat Fragment} (holding : Holding assembly state)
    (genuine : ∀ frag ∈ state.held, frag ∈ partsUnder (sendAll zlib calls).1 state.current)
    (sending : Sending) (sent : sending ∈ (sendAll zlib calls).1) (frag : Fragment)
    (piece : frag ∈ sending.fragments) :
    let entry := Arrival.entry { frag := frag, returned := (assembly.addFragment zlib frag).1 }
    let collector := machine (partsUnder (sendAll zlib calls).1) 0
    collector.allowed state entry ∧
      Holding (assembly.addFragment zlib frag).2 (collector.next state entry) ∧
      (∀ inst, (assembly.addFragment zlib frag).1 = some inst → inst = sending.call.inst) := by
  have consistent := sendAll_consistent zlib calls steady
  have whole := sliceFrom_wholeSet _ _ _ _ (consistent.sliced sending sent frag piece)
  have parts : ∀ other, other ∈ partsUnder (sendAll zlib calls).1 frag.id ↔ other ∈ sending.fragments := by
    intro other
    constructor
    · rintro ⟨same, origin, originSent, member⟩
      rw [← (consistent.same origin originSent sending sent other member frag piece same).2]
      exact member
    · exact fun member => ⟨whole.ids other member, sending, sent, member⟩
  have accepted : ∀ other ∈ state.accepted frag.id frag, other ∈ sending.fragments := by
    rintro other (rfl | ⟨same, held⟩)
    · exact piece
    · rw [← parts, ← same]
      exact genuine other held
  obtain ⟨short, packed⟩ := fits sending.call (sendAll_calls zlib calls sending sent)
  have parsed : TransportInstruction.decode sending.call.inst.encode = .ok sending.call.inst := by
    have fields := sending.call.inst.fields_le
    simp only [decompressLimit] at short
    exact TransportInstruction.decode_encode _ (by omega) (by omega)
  rcases FragmentAssembly.addFragment_spec holding whole piece accepted packed (inverse _ short) parsed with
    ⟨all, answer, after⟩ | ⟨missing, answer, after⟩
  · refine ⟨?_, ?_, ?_⟩
    · simpa [machine, Arrival.entry, answer, Set.subset_def, parts] using all
    · simpa [machine, Arrival.entry, answer] using after
    · intro inst returned
      rw [answer] at returned
      exact (Option.some.inj returned).symm
  · refine ⟨?_, ?_, ?_⟩
    · simpa [machine, Arrival.entry, answer, Set.subset_def, parts] using missing
    · simpa [machine, Arrival.entry, answer] using after
    · intro inst returned
      rw [answer] at returned
      cases returned

theorem receiveAll_refines {zlib : Zlib} {calls : List FragmentCall} (inverse : zlib.Inverse)
    (steady : Steady calls) (fits : ∀ call ∈ calls, call.Fits zlib) (deliveries : List Fragment)
    (sent : ∀ frag ∈ deliveries, ∃ sending ∈ (sendAll zlib calls).1, frag ∈ sending.fragments) :
    ∃ state, (machine (partsUnder (sendAll zlib calls).1) 0).Run
        ((FragmentAssembly.receiveAll zlib deliveries).1.map Arrival.entry) state ∧
      Holding (FragmentAssembly.receiveAll zlib deliveries).2 state ∧
      ∀ frag ∈ state.held, frag ∈ partsUnder (sendAll zlib calls).1 state.current := by
  induction deliveries using List.reverseRecOn with
  | nil => exact ⟨_, .start, Holding.start, by simp [machine]⟩
  | append_singleton deliveries frag ih =>
    obtain ⟨state, run, holding, genuine⟩ := ih fun other member => sent other (List.mem_append_left _ member)
    obtain ⟨sending, origin, piece⟩ := sent frag (by simp)
    obtain ⟨allowed, after, -⟩ :=
      addFragment_refines inverse steady fits holding genuine sending origin frag piece
    rw [FragmentAssembly.receiveAll_append, List.map_append]
    refine ⟨_, run.step allowed, after, ?_⟩
    rintro other ⟨-, rfl | ⟨same, held⟩⟩
    · exact ⟨rfl, sending, origin, piece⟩
    · rw [show state.current = frag.id from same] at genuine
      exact genuine other held

/-- What the peer may rely on: an instruction that comes out is the one that went in under the id, and
    it comes out exactly when the last missing part since the last reset comes in. -/
def Reassembled (zlib : Zlib) (calls : List FragmentCall) : Prop :=
  let sendings := (sendAll zlib calls).1
  ∀ deliveries : List Fragment, (∀ frag ∈ deliveries, ∃ sending ∈ sendings, frag ∈ sending.fragments) →
    ∀ frag, (∃ sending ∈ sendings, frag ∈ sending.fragments) →
      let before := FragmentAssembly.receiveAll zlib deliveries
      let returned := (before.2.addFragment zlib frag).1
      (∀ inst, returned = some inst → ∀ sending ∈ sendings, ∀ part ∈ sending.fragments,
          part.id = frag.id → inst = sending.call.inst) ∧
        (returned.isSome = true ↔ ∀ part ∈ partsUnder sendings frag.id,
          part = frag ∨ part ∈ window frag.id (before.1.map Arrival.entry))

theorem fragment_transport_integrity (zlib : Zlib) (inverse : zlib.Inverse) (calls : List FragmentCall)
    (steady : Steady calls) (fits : ∀ call ∈ calls, call.Fits zlib) : Reassembled zlib calls := by
  rintro deliveries sent frag ⟨sending, origin, piece⟩
  obtain ⟨state, run, holding, genuine⟩ := receiveAll_refines inverse steady fits deliveries sent
  obtain ⟨allowed, -, answer⟩ :=
    addFragment_refines inverse steady fits holding genuine sending origin frag piece
  constructor
  · intro inst returned other otherSent part member same
    rw [answer inst returned]
    exact ((sendAll_consistent zlib calls steady).same sending origin other otherSent frag piece part
      member same.symm).1
  · have accepted := accepted_eq_window run frag.id frag
    simp only [machine, Arrival.entry, Set.subset_def] at allowed
    rw [allowed]
    exact forall₂_congr fun part _ => accepted part

def typed (num : UInt64) (key : UInt8) : TransportInstruction :=
  { protocolVersion := 2, oldNum := 0, newNum := num, ackNum := 0, throwawayNum := 0,
    diff := [key, key], chaff := [] }

def packed11 : Bytes :=
  [120, 156, 227, 96, 18, 96, 144, 96, 84, 96, 208, 96, 48, 98, 98, 100, 180,
    98, 0, 0, 6, 234, 0, 236]
def packed12 : Bytes :=
  [120, 156, 227, 96, 18, 96, 144, 96, 84, 96, 208, 96, 48, 98, 98, 98, 178,
    98, 0, 0, 6, 241, 0, 238]
def packed22 : Bytes :=
  [120, 156, 227, 96, 18, 96, 144, 96, 82, 96, 208, 96, 48, 98, 98, 98, 178,
    98, 0, 0, 6, 252, 0, 239]

/-- The zlib streams of three small instructions; any other input is stored behind a zero byte. -/
def sampleZlib : Zlib where
  compress input :=
    if input = (typed 1 1).encode then packed11
    else if input = (typed 1 2).encode then packed12
    else if input = (typed 2 2).encode then packed22
    else 0 :: input
  inflate limit input :=
    if input = packed11 then .ok ((typed 1 1).encode.take limit)
    else if input = packed12 then .ok ((typed 1 2).encode.take limit)
    else if input = packed22 then .ok ((typed 2 2).encode.take limit)
    else match input with
      | 0 :: stored => .ok (stored.take limit)
      | _ => .error "corrupt deflate stream"

theorem sampleZlib_faithful : sampleZlib.Faithful := by
  intro limit input
  simp only [sampleZlib]
  split
  · rename_i same
    rw [if_pos rfl, ← same]
  · split
    · rename_i same
      rw [if_neg (by decide), if_pos rfl, ← same]
    · split
      · rename_i same
        rw [if_neg (by decide), if_neg (by decide), if_pos rfl, ← same]
      · simp [packed11, packed12, packed22]

theorem sampleZlib_inverse : sampleZlib.Inverse := sampleZlib_faithful.inverse

theorem sampleZlib_stored {input : Bytes} (long : 64 < input.length) :
    zlibCompress sampleZlib input = 0 :: input := by
  have other : ∀ inst : TransportInstruction, inst.encode.length ≤ 64 → input ≠ inst.encode := by
    rintro inst short rfl
    omega
  unfold zlibCompress sampleZlib
  dsimp only
  rw [if_neg (other _ (by decide +kernel)), if_neg (other _ (by decide +kernel)),
    if_neg (other _ (by decide +kernel))]

theorem fragment_transport_integrity_typed :
    Reassembled sampleZlib [⟨typed 1 1, 27⟩, ⟨typed 1 1, 27⟩, ⟨typed 2 2, 60⟩] :=
  fragment_transport_integrity sampleZlib sampleZlib_inverse _ (by unfold Steady; decide)
    (by unfold FragmentCall.Fits; decide +kernel)

/-- A call refused for its MTU lies between two calls with one header and different diffs: both go out
    under one id, and the second half of the first arrives as a conflicting duplicate. -/
theorem fragment_transport_refused_between :
    ¬∀ zlib : Zlib, zlib.Inverse → ∀ calls : List FragmentCall,
      calls.IsChain (fun earlier later =>
        earlier.inst.header = later.inst.header → earlier.inst.diff = later.inst.diff) →
      (∀ call ∈ calls, call.Fits zlib) → Reassembled zlib calls := by
  intro claim
  have sent : (sendAll sampleZlib [⟨typed 1 1, 27⟩, ⟨typed 2 2, 10⟩, ⟨typed 1 2, 27⟩]).1 =
      [⟨⟨typed 1 1, 27⟩, [⟨1, 0, false, packed11.take 17⟩, ⟨1, 1, true, packed11.drop 17⟩]⟩,
        ⟨⟨typed 2 2, 10⟩, []⟩,
        ⟨⟨typed 1 2, 27⟩, [⟨1, 0, false, packed12.take 17⟩, ⟨1, 1, true, packed12.drop 17⟩]⟩] := by
    decide +kernel
  have reassembled := claim sampleZlib sampleZlib_inverse
    [⟨typed 1 1, 27⟩, ⟨typed 2 2, 10⟩, ⟨typed 1 2, 27⟩] (by decide)
    (by unfold FragmentCall.Fits; decide +kernel)
  unfold Reassembled at reassembled
  rw [sent] at reassembled
  obtain ⟨-, exactly⟩ := reassembled
    [⟨1, 0, false, packed11.take 17⟩, ⟨1, 0, false, packed12.take 17⟩, ⟨1, 1, true, packed12.drop 17⟩]
    (by decide) ⟨1, 1, true, packed11.drop 17⟩ (by decide)
  have refused : ((FragmentAssembly.receiveAll sampleZlib
      [⟨1, 0, false, packed11.take 17⟩, ⟨1, 0, false, packed12.take 17⟩,
        ⟨1, 1, true, packed12.drop 17⟩]).2.addFragment sampleZlib ⟨1, 1, true, packed11.drop 17⟩).1 =
      none := by decide +kernel
  have arrived : window 1 ((FragmentAssembly.receiveAll sampleZlib
      [⟨1, 0, false, packed11.take 17⟩, ⟨1, 0, false, packed12.take 17⟩,
        ⟨1, 1, true, packed12.drop 17⟩]).1.map Arrival.entry) =
      [⟨1, 1, true, packed12.drop 17⟩, ⟨1, 0, false, packed12.take 17⟩,
        ⟨1, 0, false, packed11.take 17⟩] := by decide +kernel
  rw [refused, arrived] at exactly
  have all_arrived := exactly.mpr <| by
    rintro part ⟨-, sending, member, piece⟩
    simp only [List.mem_cons, List.not_mem_nil, or_false] at member
    rcases member with rfl | rfl | rfl
    · rcases List.mem_pair.mp piece with rfl | rfl <;> simp
    · simp at piece
    · rcases List.mem_pair.mp piece with rfl | rfl <;> simp
  cases all_arrived

end MoshModel
