import MoshClient.Fragment.Limits

namespace MoshModel

open Fragmenter

instance (calls : List FragmentCall) : Decidable (Steady calls) := inferInstanceAs (Decidable (List.IsChain _ _))

def Cut (sendings : List Sending) (frag : Fragment) : Prop := ∃ sending ∈ sendings, frag ∈ sending.fragments

theorem Cut.more {sendings : List Sending} {frag : Fragment} (cut : Cut sendings frag) (later : List Sending) :
    Cut (sendings ++ later) frag := by
  obtain ⟨sending, sent, piece⟩ := cut
  exact ⟨sending, List.mem_append_left _ sent, piece⟩

theorem Zlib.Faithful.decodes {zlib : Zlib} (faithful : zlib.Faithful) {inst other : TransportInstruction}
    (decoded : decodes zlib (zlibCompress zlib inst.encode) other) : inst = other := by
  obtain ⟨inflated, inflates, parsed⟩ := decoded
  rw [faithful.decompress] at inflates
  split at inflates
  · cases inflates
  · rename_i short
    cases inflates
    have fields := inst.fields_le
    simp only [decompressLimit] at short
    rw [inst.decode_encode (by omega) (by omega)] at parsed
    exact Except.ok.inj parsed

namespace FragmentAssembly

/-- Fed nothing but what was cut in steady calls, an assembly gives back nothing but their instructions. -/
theorem Sound.genuine {zlib : Zlib} (faithful : zlib.Faithful) {calls : List FragmentCall} (steady : Steady calls)
    {delivered : List Fragment} {assembly : FragmentAssembly} {frag : Fragment} (sound : Sound delivered assembly)
    (cut : ∀ other ∈ delivered ++ [frag], Cut (sendAll zlib calls).1 other) {inst : TransportInstruction}
    (returned : (assembly.addFragment zlib frag).1 = some inst) :
    ∃ sending ∈ (sendAll zlib calls).1, frag ∈ sending.fragments ∧ sending.call.inst = inst := by
  have consistent := sendAll_consistent zlib calls steady
  obtain ⟨parts, assembled, -⟩ := (addFragment_sound zlib sound frag).2 inst returned
  obtain ⟨sending, sent, piece⟩ := cut frag (List.mem_append_right _ (List.mem_singleton_self _))
  have whole := sliceFrom_wholeSet _ _ _ _ (consistent.sliced sending sent frag piece)
  have ours : ∀ part ∈ parts, part ∈ sending.fragments := by
    intro part member
    obtain ⟨other, otherSent, otherPiece⟩ := cut part (assembled.delivered part member)
    have same := consistent.same other otherSent sending sent part otherPiece frag piece (assembled.ids part member)
    rw [← same.2]
    exact otherPiece
  have alone : Assembled zlib parts inst parts frag.id := { assembled with delivered := fun _ member => member }
  obtain rfl := alone.parts_eq whole ours
  refine ⟨sending, sent, piece, faithful.decodes ?_⟩
  rw [← whole.contents]
  exact assembled.decoded

/-- The assembly was fed nothing but what was cut. -/
def Gathers (sendings : List Sending) (assembly : FragmentAssembly) : Prop :=
  ∃ delivered, Sound delivered assembly ∧ ∀ frag ∈ delivered, Cut sendings frag

theorem Gathers.start : Gathers [] new := ⟨[], Sound.start, fun _ member => absurd member List.not_mem_nil⟩

theorem Gathers.more {sendings : List Sending} {assembly : FragmentAssembly} (gathers : Gathers sendings assembly)
    (later : List Sending) : Gathers (sendings ++ later) assembly := by
  obtain ⟨delivered, sound, cut⟩ := gathers
  exact ⟨delivered, sound, fun frag member => (cut frag member).more later⟩

theorem Gathers.add {sendings : List Sending} {assembly : FragmentAssembly} (gathers : Gathers sendings assembly)
    (zlib : Zlib) {frag : Fragment} (cut : Cut sendings frag) :
    Gathers sendings (assembly.addFragment zlib frag).2 := by
  obtain ⟨delivered, sound, all⟩ := gathers
  refine ⟨delivered ++ [frag], (addFragment_sound zlib sound frag).1, fun other member => ?_⟩
  rcases List.mem_append.mp member with old | new
  · exact all other old
  · rw [List.mem_singleton.mp new]
    exact cut

theorem Gathers.returned {zlib : Zlib} (faithful : zlib.Faithful) {sendings : List Sending} {fragmenter : Fragmenter}
    (sent : sendAll zlib (sendings.map Sending.call) = (sendings, fragmenter))
    (steady : Steady (sendings.map Sending.call)) {assembly : FragmentAssembly} (gathers : Gathers sendings assembly)
    {frag : Fragment} (cut : Cut sendings frag) (inst : TransportInstruction)
    (returned : (assembly.addFragment zlib frag).1 = some inst) :
    ∃ sending ∈ sendings, frag ∈ sending.fragments ∧ sending.call.inst = inst := by
  obtain ⟨delivered, sound, all⟩ := gathers
  have sendings_eq : (sendAll zlib (sendings.map Sending.call)).1 = sendings := congrArg Prod.fst sent
  rw [← sendings_eq]
  refine sound.genuine faithful steady (fun other member => ?_) returned
  rw [sendings_eq]
  rcases List.mem_append.mp member with old | new
  · exact all other old
  · rw [List.mem_singleton.mp new]
    exact cut

end FragmentAssembly

namespace Fragmenter

theorem sliceFrom_numbers {id mtu index : Nat} {rest : Bytes} {fragments : List Fragment}
    (sliced : sliceFrom id mtu index rest = .ok fragments) : ∀ frag ∈ fragments, frag.fragmentNum ≤ maxFragmentIndex := by
  induction index, rest using sliceFrom.induct mtu generalizing fragments with
  | case1 index rest beyond =>
    rw [sliceFrom, if_pos beyond] at sliced
    cases sliced
  | case2 index rest inside more ih =>
    rw [sliceFrom, if_neg inside, if_pos more] at sliced
    cases tail : sliceFrom id mtu (index + 1) (rest.drop mtu) with
    | error e =>
      rw [tail] at sliced
      cases sliced
    | ok others =>
      rw [tail] at sliced
      cases sliced
      intro frag member
      rcases List.mem_cons.mp member with rfl | member
      · exact Nat.le_of_not_lt inside
      · exact ih tail frag member
  | case3 index rest inside enough =>
    rw [sliceFrom, if_neg inside, if_neg enough] at sliced
    cases sliced
    intro frag member
    rw [List.mem_singleton.mp member]
    exact Nat.le_of_not_lt inside

theorem Consistent.onWire {zlib : Zlib} {recorded : List FragmentCall} {sendings : List Sending}
    {fragmenter : Fragmenter} (consistent : Consistent zlib recorded sendings fragmenter)
    (ids : fragmenter.nextInstructionId < 2 ^ 64) {frag : Fragment} (cut : Cut sendings frag) : frag.OnWire := by
  obtain ⟨sending, sent, piece⟩ := cut
  constructor
  · exact Nat.lt_of_le_of_lt (consistent.bounded sending sent frag piece) ids
  · exact Nat.lt_succ_of_le (sliceFrom_numbers (consistent.sliced sending sent frag piece) frag piece)

theorem send_ids (zlib : Zlib) (fragmenter : Fragmenter) (call : FragmentCall) :
    (fragmenter.send zlib call).2.nextInstructionId ≤ fragmenter.nextInstructionId + 1 := by
  by_cases counted : call.recorded = true
  · rw [(send_recorded zlib fragmenter call counted).1]
    dsimp only
    unfold nextId
    split <;> omega
  · rw [send_refused zlib fragmenter call (Bool.eq_false_iff.mpr counted)]
    exact Nat.le_succ _

end Fragmenter

end MoshModel
