import MoshClient.Fragment.Completion
import MoshClient.Fragment.LastAck

namespace MoshModel

open Collector Fragmenter

namespace FragmentAssembly

/-- Nothing of the id is in the buffer. -/
def Ready (id : Nat) (assembly : FragmentAssembly) : Prop := assembly.currentId ≠ id ∨ assembly.Cleared

/-- The assembly a first fragment of the id finds, as far as it looks. -/
def clearedAt (id : Nat) : FragmentAssembly := { new with currentId := id }

theorem Ready.addFragment_eq {assembly : FragmentAssembly} {frag : Fragment} (ready : assembly.Ready frag.id)
    (zlib : Zlib) : assembly.addFragment zlib frag = (clearedAt frag.id).addFragment zlib frag := by
  by_cases current : assembly.currentId = frag.id
  · have cleared := ready.resolve_left (not_not.mpr current)
    have same : assembly = clearedAt frag.id := by
      obtain ⟨fragments, arrived, total, bytes⟩ := cleared
      cases assembly
      simp_all [clearedAt, new]
    rw [same]
  · have alone : (clearedAt frag.id).place frag = assembly.place frag := by
      unfold place
      rw [if_pos current]
      simp [clearedAt, new]
    unfold addFragment
    rw [alone, place, if_pos current]

theorem feed_append (zlib : Zlib) (assembly : FragmentAssembly) (before : List Fragment) (frag : Fragment) :
    assembly.feed zlib (before ++ [frag]) = ((assembly.feed zlib before).addFragment zlib frag).2 := by
  simp [feed, List.foldl_append]

theorem Ready.returns_iff {assembly : FragmentAssembly} {id : Nat} (ready : assembly.Ready id) (zlib : Zlib)
    {frags : List Fragment} (ids : ∀ frag ∈ frags, frag.id = id) (inst : TransportInstruction) :
    assembly.Returns zlib frags inst ↔ (clearedAt id).Returns zlib frags inst := by
  cases frags with
  | nil => simp [Returns]
  | cons frag frags =>
    obtain rfl := ids frag (List.mem_cons_self ..)
    have first := ready.addFragment_eq zlib
    have same : ∀ before part after, frag :: frags = before ++ part :: after →
        (assembly.feed zlib before).addFragment zlib part =
          ((clearedAt frag.id).feed zlib before).addFragment zlib part := by
      intro before part after split
      cases before with
      | nil =>
        cases split
        exact first
      | cons other before =>
        cases split
        rw [feed, feed, List.foldl_cons, List.foldl_cons, first]
    unfold Returns
    constructor
    · rintro ⟨before, part, after, split, answer⟩
      exact ⟨before, part, after, split, by rw [← same before part after split, answer]⟩
    · rintro ⟨before, part, after, split, answer⟩
      exact ⟨before, part, after, split, by rw [same before part after split, answer]⟩

theorem Sound.feed {zlib : Zlib} {assembly : FragmentAssembly} {delivered : List Fragment}
    (sound : Sound delivered assembly) (frags : List Fragment) :
    Sound (delivered ++ frags) (assembly.feed zlib frags) := by
  induction frags using List.reverseRecOn with
  | nil => simpa [FragmentAssembly.feed] using sound
  | append_singleton frags frag ih =>
    rw [feed_append, ← List.append_assoc]
    exact (addFragment_sound zlib ih frag).1

end FragmentAssembly

theorem Assembled.parts_eq {zlib : Zlib} {delivered parts set : List Fragment} {inst : TransportInstruction}
    {id id' : Nat} {payload : Bytes} (assembled : Assembled zlib delivered inst parts id)
    (whole : WholeSet id' payload set) (ours : ∀ frag ∈ delivered, frag ∈ set) : parts = set := by
  have placed : ∀ index (bound : index < parts.length),
      set[index]? = some parts[index] ∧ (parts[index].final = true → index + 1 = set.length) := by
    intro index bound
    obtain ⟨-, last, found⟩ := whole.place (ours _ (assembled.delivered _ (List.getElem_mem bound)))
    rw [assembled.numbered index bound] at last found
    exact ⟨found, last.mp⟩
  obtain ⟨last, found, final⟩ := assembled.final
  have nonempty : parts ≠ [] := List.ne_nil_of_mem (List.mem_of_getLast? found)
  obtain rfl : parts.getLast nonempty = last := by
    rwa [List.getLast?_eq_some_getLast nonempty, Option.mem_some_iff] at found
  have positive := List.length_pos_iff.mpr nonempty
  rw [List.getLast_eq_getElem] at final
  have full := (placed _ (by omega)).2 final
  apply List.ext_getElem?
  intro index
  by_cases bound : index < parts.length
  · rw [(placed index bound).1, List.getElem?_eq_getElem bound]
  · rw [List.getElem?_eq_none (by omega), List.getElem?_eq_none (by omega)]

namespace FragmentAssembly

theorem Ready.returned {zlib : Zlib} {assembly : FragmentAssembly} {id : Nat} {payload : Bytes}
    {parts frags : List Fragment} {inst : TransportInstruction} (ready : assembly.Ready id)
    (whole : WholeSet id payload parts) (ours : ∀ frag ∈ frags, frag ∈ parts)
    (returns : assembly.Returns zlib frags inst) : payload.length ≤ assemblyLimit ∧ decodes zlib payload inst := by
  rw [ready.returns_iff zlib fun frag member => whole.ids frag (ours frag member)] at returns
  obtain ⟨before, part, after, rfl, answer⟩ := returns
  have empty : Sound [] (clearedAt id) := ⟨rfl, by simp [clearedAt, new], by simp [clearedAt, new]⟩
  obtain ⟨others, assembled, packed⟩ := (addFragment_sound zlib (empty.feed before) part).2 inst answer
  obtain rfl := assembled.parts_eq whole fun frag member => ours frag <| by
    simp only [List.nil_append, List.mem_append, List.mem_singleton] at member
    rcases member with member | rfl
    · exact List.mem_append_left _ member
    · exact List.mem_append_right _ (List.mem_cons_self ..)
  rw [whole.contents] at packed
  exact ⟨packed, by rw [← whole.contents]; exact assembled.decoded⟩

theorem Ready.delivers {zlib : Zlib} {assembly : FragmentAssembly} {id : Nat} {parts : List Fragment}
    {inst : TransportInstruction} (ready : assembly.Ready id) (valid : ValidSet zlib id inst parts) :
    assembly.Delivers zlib inst parts := by
  intro frags ours all
  rw [ready.returns_iff zlib fun frag member => valid.whole.ids frag (ours frag member)]
  have cleared : (clearedAt id).Cleared := ⟨rfl, rfl, rfl, rfl⟩
  exact cleared.delivers valid frags ours all

end FragmentAssembly

open FragmentAssembly

/-- The sender looks at neither cap of the receiver, only at the number of fragments: what it frames comes
    out of an assembly exactly where both caps are kept. -/
theorem framed_within_caps (zlib : Zlib) (faithful : zlib.Faithful) (fragmenter : Fragmenter)
    (inst : TransportInstruction) (mtu : Nat) (fragments : List Fragment)
    (made : (fragmenter.makeFragments zlib inst mtu).1 = .ok fragments) :
    (fragments.flatMap Fragment.contents).length ≤ 32768 * (mtu - fragHeaderLen) ∧
      ∀ assembly : FragmentAssembly, (∀ frag ∈ fragments, assembly.Ready frag.id) →
        if inst.encode.length ≤ decompressLimit ∧ (fragments.flatMap Fragment.contents).length ≤ assemblyLimit
        then assembly.Delivers zlib inst fragments
        else ∀ frags : List Fragment, (∀ frag ∈ frags, frag ∈ fragments) →
          ∀ other, ¬assembly.Returns zlib frags other := by
  have whole := fragmenter.makeFragments_whole zlib inst made
  have room : fragHeaderLen < mtu := by
    by_contra small
    rw [makeFragments_refused zlib fragmenter inst (Nat.le_of_not_lt small)] at made
    cases made
  constructor
  · have sliced := fragmenter.makeFragments_sliced zlib inst room
    rw [made] at sliced
    cases sliced with
    | cut within _ _ =>
      rw [Nat.zero_add, maxFragmentIndex, Pieces.count_le_iff (Nat.sub_pos_of_lt room) (by decide)] at within
      rw [whole.contents, Nat.mul_comm]
      exact within
  · intro assembly readyAt
    have ready : assembly.Ready (fragmenter.nextId ⟨inst, mtu⟩) := by
      obtain ⟨frag, member⟩ := List.exists_mem_of_ne_nil fragments whole.nonempty
      rw [← whole.ids frag member]
      exact readyAt frag member
    have inflated := faithful.decompress inst.encode
    split
    · rename_i within
      obtain ⟨short, packed⟩ := within
      apply ready.delivers
      have fields := inst.fields_le
      have parsed : TransportInstruction.decode inst.encode = .ok inst := by
        simp only [decompressLimit] at short
        exact TransportInstruction.decode_encode _ (by omega) (by omega)
      rw [if_neg (Nat.not_lt.mpr short)] at inflated
      have set : WholeSet (fragmenter.nextId ⟨inst, mtu⟩) (fragments.flatMap Fragment.contents) fragments := by
        rw [whole.contents]
        exact whole
      refine ⟨set, packed, ?_⟩
      rw [whole.contents]
      exact ⟨inst.encode, inflated, parsed⟩
    · rename_i beyond
      intro frags ours other returns
      obtain ⟨packed, output, decompressed, -⟩ := ready.returned whole ours returns
      apply beyond
      rw [whole.contents]
      refine ⟨?_, packed⟩
      by_contra long
      rw [if_pos (Nat.lt_of_not_le long), decompressed] at inflated
      cases inflated

theorem framed_within_caps_typed : ∃ fragments,
    (Fragmenter.default.makeFragments sampleZlib (typed 1 1) 27).1 = .ok fragments ∧
      FragmentAssembly.new.Delivers sampleZlib (typed 1 1) fragments := by
  refine ⟨[⟨1, 0, false, packed11.take 17⟩, ⟨1, 1, true, packed11.drop 17⟩], by decide +kernel, ?_⟩
  have caps := (framed_within_caps sampleZlib sampleZlib_faithful Fragmenter.default (typed 1 1) 27
    [⟨1, 0, false, packed11.take 17⟩, ⟨1, 1, true, packed11.drop 17⟩] (by decide +kernel)).2 FragmentAssembly.new
    (fun _ _ => .inr ⟨rfl, rfl, rfl, rfl⟩)
  rwa [if_pos (by decide +kernel)] at caps

theorem framed_of_short {inst : TransportInstruction} (long : 64 < inst.encode.length)
    (short : inst.encode.length < 32768 * 490) :
    ∃ fragments, (Fragmenter.default.makeFragments sampleZlib inst 500).1 = .ok fragments := by
  have counted : FragmentCall.recorded ⟨inst, 500⟩ = true := rfl
  have small : FragmentCall.oversize sampleZlib ⟨inst, 500⟩ = false := by
    unfold FragmentCall.oversize
    rw [decide_eq_false_iff_not, Nat.not_lt]
    show (zlibCompress sampleZlib inst.encode).length ⌈/⌉ 490 ≤ 32768
    rw [sampleZlib_stored long, List.length_cons, ceilDiv_le_iff_le_smul (by decide), smul_eq_mul]
    omega
  rcases Fragmenter.default.makeFragments_recorded sampleZlib counted with ⟨large, -⟩ | ⟨-, fragments, -, made⟩
  · rw [small] at large
    cases large
  · exact ⟨fragments, by rw [made]⟩

/-- A paste of 5 MiB. -/
def pasted : TransportInstruction :=
  { protocolVersion := 2, oldNum := 0, newNum := 1, ackNum := 0, throwawayNum := 0,
    diff := noise 1 5242880, chaff := [] }

theorem framed_beyond_caps :
    ¬∀ zlib : Zlib, zlib.Faithful → ∀ (fragmenter : Fragmenter) (inst : TransportInstruction) (mtu : Nat)
      (fragments : List Fragment), (fragmenter.makeFragments zlib inst mtu).1 = .ok fragments →
        inst.encode.length ≤ decompressLimit ∧ (fragments.flatMap Fragment.contents).length ≤ assemblyLimit := by
  intro claim
  have least := pasted.fields_le.1
  have most := pasted.encode_length_le
  rw [show pasted.diff.length = 5242880 from noise_length 1 5242880] at least most
  rw [show pasted.chaff.length = 0 from rfl] at most
  obtain ⟨fragments, made⟩ := @framed_of_short pasted (by omega) (by omega)
  have caps := (claim sampleZlib sampleZlib_faithful Fragmenter.default pasted 500 fragments made).1
  rw [decompressLimit] at caps
  omega

end MoshModel
