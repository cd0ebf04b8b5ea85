import MoshClient.Fragment.Integrity

namespace MoshModel

/-- What an assembly keeps true of its counter, its total and its slots, whatever is fed to it. -/
structure FragmentAssembly.Sound (delivered : List Fragment) (assembly : FragmentAssembly) : Prop where
  arrived : assembly.fragmentsArrived = assembly.fragments.countP Option.isSome
  filled : ∀ (index : Nat) (frag : Fragment), assembly.fragments[index]? = some (some frag) →
    frag ∈ delivered ∧ frag.id = assembly.currentId ∧ frag.fragmentNum = index
  total : ∀ count, assembly.fragmentsTotal = some count →
    1 ≤ count ∧ count ≤ assembly.fragments.length ∧
      ∃ frag, assembly.fragments[count - 1]? = some (some frag) ∧ frag.final = true

/-- An instruction put together from delivered fragments of one id, from the first to a final one. -/
structure Assembled (zlib : Zlib) (delivered : List Fragment) (inst : TransportInstruction)
    (parts : List Fragment) (id : Nat) : Prop where
  delivered : ∀ frag ∈ parts, frag ∈ delivered
  ids : ∀ frag ∈ parts, frag.id = id
  numbered : ∀ index (bound : index < parts.length), parts[index].fragmentNum = index
  final : ∃ last ∈ parts.getLast?, last.final = true
  decoded : ∃ inflated, zlibDecompress zlib (parts.flatMap Fragment.contents) = .ok inflated ∧
    TransportInstruction.decode inflated = .ok inst

namespace FragmentAssembly

variable {delivered : List Fragment} {assembly : FragmentAssembly}

theorem Sound.start : Sound [] new := ⟨rfl, by simp [new], by simp [new]⟩

theorem Sound.reset : Sound delivered assembly.reset :=
  ⟨rfl, by simp [FragmentAssembly.reset], by simp [FragmentAssembly.reset]⟩

theorem Sound.more (sound : Sound delivered assembly) (frag : Fragment) :
    Sound (delivered ++ [frag]) assembly := by
  refine ⟨sound.arrived, fun index other slot => ?_, sound.total⟩
  obtain ⟨member, rest⟩ := sound.filled index other slot
  exact ⟨List.mem_append_left _ member, rest⟩

theorem Sound.padded (sound : Sound delivered assembly) (frag : Fragment) :
    Sound (delivered ++ [frag]) { assembly with fragments := assembly.padded frag } := by
  refine ⟨?_, fun index other slot => ?_, fun count total => ?_⟩
  · exact sound.arrived.trans (padded_count _ _).symm
  · exact (sound.more frag).filled index other (padded_some.mp slot)
  · obtain ⟨positive, bound, last, slot, final⟩ := sound.total count total
    exact ⟨positive, Nat.le_trans bound (assembly.padded_inside frag).2, last, padded_some.mpr slot, final⟩

theorem Sound.fill {frag : Fragment} (sound : Sound delivered assembly) (member : frag ∈ delivered)
    (current : assembly.currentId = frag.id) (empty : assembly.fragments[frag.fragmentNum]? = some none) :
    Sound delivered { assembly with
      fragments := assembly.fragments.set frag.fragmentNum (some frag)
      fragmentsArrived := assembly.fragmentsArrived + 1 } := by
  obtain ⟨inside, -⟩ := List.getElem?_eq_some_iff.mp empty
  refine ⟨?_, fun index other slot => ?_, fun count total => ?_⟩
  · show assembly.fragmentsArrived + 1 = _
    rw [filled_count empty, sound.arrived]
  · by_cases here : frag.fragmentNum = index
    · subst here
      rw [List.getElem?_set_self inside] at slot
      cases slot
      exact ⟨member, current.symm, rfl⟩
    · rw [List.getElem?_set_ne here] at slot
      exact sound.filled index other slot
  · obtain ⟨positive, bound, last, slot, final⟩ := sound.total count total
    have apart : frag.fragmentNum ≠ count - 1 := by
      intro here
      rw [← here, empty] at slot
      cases slot
    refine ⟨positive, ?_, last, ?_, final⟩
    · rw [List.length_set]
      exact bound
    · rw [List.getElem?_set_ne apart]
      exact slot

theorem place_sound (sound : Sound delivered assembly) {frag : Fragment} {placed : FragmentAssembly}
    (taken : assembly.place frag = some placed) :
    Sound (delivered ++ [frag]) placed ∧ placed.fragments[frag.fragmentNum]? = some (some frag) ∧
      placed.currentId = frag.id := by
  have outcome := assembly.place_placed frag
  rw [taken] at outcome
  have member : frag ∈ delivered ++ [frag] := List.mem_append_right _ (List.mem_singleton_self frag)
  cases outcome with
  | alone other =>
    refine ⟨⟨?_, fun index other slot => ?_, nofun⟩, by simp, rfl⟩
    · simp [List.countP_set, List.countP_replicate]
    · rw [List.getElem?_set] at slot
      split at slot
      · rename_i here
        split at slot
        · cases slot
          exact ⟨member, rfl, here⟩
        · cases slot
      · rw [List.getElem?_replicate] at slot
        split at slot <;> cases slot
  | duplicate current slot => exact ⟨sound.padded frag, slot, current⟩
  | filled current slot =>
    obtain ⟨inside, -⟩ := List.getElem?_eq_some_iff.mp slot
    exact ⟨(sound.padded frag).fill member current slot, List.getElem?_set_self inside, current⟩

theorem noteFinal_sound {frag : Fragment} (sound : Sound delivered assembly)
    (placed : assembly.fragments[frag.fragmentNum]? = some (some frag)) :
    Sound delivered (assembly.noteFinal frag) := by
  unfold noteFinal
  by_cases final : frag.final = true
  · obtain ⟨inside, -⟩ := List.getElem?_eq_some_iff.mp placed
    rw [if_pos final]
    by_cases short : frag.fragmentNum + 1 < assembly.fragments.length
    · simp only [if_pos short]
      have kept : ∀ (index : Nat) (slot : Option Fragment), (assembly.fragments.take (frag.fragmentNum + 1))[index]? =
          some slot → assembly.fragments[index]? = some slot := by
        intro index slot found
        rw [List.getElem?_take] at found
        split at found
        · exact found
        · cases found
      refine ⟨rfl, fun index other slot => sound.filled index other (kept index _ slot), ?_⟩
      rintro count ⟨⟩
      refine ⟨Nat.le_add_left _ _, ?_, frag, ?_, final⟩
      · rw [List.length_take]
        omega
      · rw [Nat.add_sub_cancel, List.getElem?_take_of_lt (Nat.lt_succ_self _)]
        exact placed
    · simp only [if_neg short]
      refine ⟨sound.arrived, sound.filled, ?_⟩
      rintro count ⟨⟩
      exact ⟨Nat.le_add_left _ _, inside, frag, placed, final⟩
  · rw [if_neg final]
    exact sound

theorem gather_whole {slots : List (Option Fragment)} {before after : Nat} {start encoded : Bytes}
    (gathered : gather slots before start = .whole after encoded) :
    ∃ parts : List Fragment, slots = parts.map some ∧ encoded = start ++ parts.flatMap Fragment.contents ∧
      after = before + (parts.flatMap Fragment.contents).length ∧ (slots = [] ∨ after ≤ assemblyLimit) := by
  induction slots generalizing before start with
  | nil =>
    cases gathered
    exact ⟨[], rfl, (List.append_nil _).symm, rfl, .inl rfl⟩
  | cons slot slots ih =>
    cases slot with
    | none => cases gathered
    | some frag =>
      rw [gather] at gathered
      split at gathered
      · cases gathered
      · rename_i fits
        obtain ⟨parts, rfl, rfl, counted, within⟩ := ih gathered
        rw [Nat.add_assoc, ← List.length_append] at counted
        refine ⟨frag :: parts, rfl, by rw [List.flatMap_cons, List.append_assoc], counted, .inr ?_⟩
        rcases within with last | within
        · rw [List.map_eq_nil_iff.mp last] at counted
          simpa [counted] using fits
        · exact within

/-- A full count with no hole: the slots are the parts of one id, ended by a final one. -/
theorem Sound.assembled {zlib : Zlib} {inst : TransportInstruction} {parts : List Fragment} {output : Bytes}
    (sound : Sound delivered assembly) (complete : assembly.fragmentsTotal = some assembly.fragmentsArrived)
    (slots : assembly.fragments = parts.map some)
    (inflated : zlibDecompress zlib (parts.flatMap Fragment.contents) = .ok output)
    (parsed : TransportInstruction.decode output = .ok inst) :
    Assembled zlib delivered inst parts assembly.currentId := by
  have place : ∀ index (bound : index < parts.length),
      assembly.fragments[index]? = some (some parts[index]) := by
    intro index bound
    rw [slots, List.getElem?_map, List.getElem?_eq_getElem bound]
    rfl
  constructor
  · intro frag member
    obtain ⟨index, bound, rfl⟩ := List.getElem_of_mem member
    exact (sound.filled index _ (place index bound)).1
  · intro frag member
    obtain ⟨index, bound, rfl⟩ := List.getElem_of_mem member
    exact (sound.filled index _ (place index bound)).2.1
  · intro index bound
    exact (sound.filled index _ (place index bound)).2.2
  · obtain ⟨positive, -, last, lastSlot, final⟩ := sound.total _ complete
    have all : assembly.fragmentsArrived = parts.length := by
      rw [sound.arrived, slots, List.countP_map]
      exact List.countP_eq_length.mpr fun _ _ => rfl
    rw [all] at positive lastSlot
    rw [place (parts.length - 1) (by omega)] at lastSlot
    cases lastSlot
    refine ⟨_, ?_, final⟩
    rw [List.getLast?_eq_getElem?, List.getElem?_eq_getElem (by omega)]
    exact rfl
  · exact ⟨output, inflated, parsed⟩

theorem takeAssembly_sound {zlib : Zlib} (sound : Sound delivered assembly)
    (complete : assembly.fragmentsTotal = some assembly.fragmentsArrived) :
    Sound delivered (assembly.takeAssembly zlib).2 ∧
      ∀ inst, (assembly.takeAssembly zlib).1 = some inst →
        ∃ parts, Assembled zlib delivered inst parts assembly.currentId ∧
          (parts.flatMap Fragment.contents).length ≤ assemblyLimit := by
  unfold takeAssembly
  cases gathered : gather assembly.fragments assembly.assembledBytes [] with
  | tooLarge => exact ⟨Sound.reset, nofun⟩
  | hole => exact ⟨Sound.reset, nofun⟩
  | whole bytes encoded =>
    have counted : Sound delivered { assembly with assembledBytes := bytes } :=
      ⟨sound.arrived, sound.filled, sound.total⟩
    dsimp only
    cases inflated : zlibDecompress zlib encoded with
    | error e => exact ⟨counted, nofun⟩
    | ok output =>
      dsimp only
      cases parsed : TransportInstruction.decode output with
      | error e => exact ⟨counted, nofun⟩
      | ok inst =>
        constructor
        · exact Sound.reset
        · intro _ taken
          cases taken
          obtain ⟨parts, slots, rfl, total, within⟩ := gather_whole gathered
          rw [List.nil_append] at inflated
          refine ⟨parts, sound.assembled complete slots inflated parsed, ?_⟩
          obtain ⟨positive, bound, -⟩ := sound.total _ complete
          have packed := within.resolve_left (List.ne_nil_of_length_pos (by omega))
          omega

theorem noteFinal_currentId (assembly : FragmentAssembly) (frag : Fragment) :
    (assembly.noteFinal frag).currentId = assembly.currentId := by
  unfold noteFinal
  split
  · dsimp only
    split <;> rfl
  · rfl

theorem addFragment_sound (zlib : Zlib) (sound : Sound delivered assembly) (frag : Fragment) :
    Sound (delivered ++ [frag]) (assembly.addFragment zlib frag).2 ∧
      ∀ inst, (assembly.addFragment zlib frag).1 = some inst →
        ∃ parts, Assembled zlib (delivered ++ [frag]) inst parts frag.id ∧
          (parts.flatMap Fragment.contents).length ≤ assemblyLimit := by
  unfold addFragment
  cases taken : assembly.place frag with
  | none => exact ⟨sound.more frag, nofun⟩
  | some placed =>
    obtain ⟨placedSound, slot, current⟩ := place_sound sound taken
    have noted := noteFinal_sound placedSound slot
    dsimp only
    split
    · rename_i complete
      rw [← current, ← placed.noteFinal_currentId frag]
      exact takeAssembly_sound noted complete
    · exact ⟨noted, nofun⟩

theorem receiveAll_sound (zlib : Zlib) (deliveries : List Fragment) :
    Sound deliveries (receiveAll zlib deliveries).2 := by
  induction deliveries using List.reverseRecOn with
  | nil => exact Sound.start
  | append_singleton deliveries frag ih =>
    rw [receiveAll_append]
    exact (addFragment_sound zlib ih frag).1

end FragmentAssembly

/-- Whatever arrives, counter, total and slots agree, and an instruction that comes out was delivered
    whole under one id. -/
theorem hostile_reassembly_sound (zlib : Zlib) (deliveries : List Fragment) :
    (FragmentAssembly.receiveAll zlib deliveries).2.Sound deliveries ∧
      ∀ frag inst, ((FragmentAssembly.receiveAll zlib deliveries).2.addFragment zlib frag).1 = some inst →
        ∃ parts, Assembled zlib (deliveries ++ [frag]) inst parts frag.id := by
  have sound := FragmentAssembly.receiveAll_sound zlib deliveries
  refine ⟨sound, fun frag inst returned => ?_⟩
  obtain ⟨parts, assembled, -⟩ := (FragmentAssembly.addFragment_sound zlib sound frag).2 inst returned
  exact ⟨parts, assembled⟩

end MoshModel
