import MoshClient.Fragment.Sending
import MoshClient.Library.Collector
import MoshClient.Wire.RoundTrip

namespace MoshModel

open Collector

/-- The slots hold exactly these fragments, each at its own number, and none is kept past the last. -/
structure Slotted (slots : List (Option Fragment)) (held : Set Fragment) : Prop where
  filled : ∀ index frag, slots[index]? = some (some frag) ↔ frag ∈ held ∧ frag.fragmentNum = index
  tight : ∀ index < slots.length, ∃ frag ∈ held, index ≤ frag.fragmentNum

theorem Slotted.empty : Slotted [] ∅ := ⟨by simp, by simp⟩

theorem padded_some {slots : List (Option Fragment)} {count index : Nat} {frag : Fragment} :
    (slots ++ List.replicate count none)[index]? = some (some frag) ↔ slots[index]? = some (some frag) := by
  by_cases inside : index < slots.length
  · rw [List.getElem?_append_left inside]
  · rw [List.getElem?_append_right (Nat.le_of_not_lt inside), List.getElem?_replicate,
      List.getElem?_eq_none (Nat.le_of_not_lt inside)]
    split <;> simp

theorem padded_count (slots : List (Option Fragment)) (count : Nat) :
    (slots ++ List.replicate count none).countP Option.isSome = slots.countP Option.isSome := by
  simp [List.countP_replicate]

theorem Slotted.fill {slots : List (Option Fragment)} {held : Set Fragment} (slotted : Slotted slots held)
    (frag : Fragment)
    (agree : ∀ other ∈ held, other.fragmentNum = frag.fragmentNum → other = frag) :
    Slotted ((slots ++ List.replicate (frag.fragmentNum + 1 - slots.length) none).set frag.fragmentNum
      (some frag)) {other | other = frag ∨ other ∈ held} := by
  have padded : frag.fragmentNum <
      (slots ++ List.replicate (frag.fragmentNum + 1 - slots.length) none).length := by
    rw [List.length_append, List.length_replicate]
    omega
  constructor
  · intro index other
    by_cases here : frag.fragmentNum = index
    · subst here
      rw [List.getElem?_set_self padded]
      constructor
      · intro same
        obtain rfl : frag = other := Option.some.inj (Option.some.inj same)
        exact ⟨.inl rfl, rfl⟩
      · rintro ⟨rfl | member, number⟩
        · rfl
        · rw [agree other member number]
    · rw [List.getElem?_set_ne here]
      rw [padded_some, slotted.filled]
      constructor
      · exact fun ⟨member, number⟩ => ⟨.inr member, number⟩
      · rintro ⟨same | member, number⟩
        · rw [same] at number
          exact absurd number here
        · exact ⟨member, number⟩
  · intro index bound
    rw [List.length_set, List.length_append, List.length_replicate] at bound
    by_cases inside : index < slots.length
    · obtain ⟨other, member, past⟩ := slotted.tight index inside
      exact ⟨other, .inr member, past⟩
    · exact ⟨frag, .inl rfl, by omega⟩

theorem WholeSet.place {id : Nat} {payload : Bytes} {parts : List Fragment}
    (whole : WholeSet id payload parts) {frag : Fragment} (member : frag ∈ parts) :
    frag.fragmentNum < parts.length ∧ (frag.final = true ↔ frag.fragmentNum + 1 = parts.length) ∧
      parts[frag.fragmentNum]? = some frag := by
  obtain ⟨index, bound, rfl⟩ := List.getElem_of_mem member
  rw [whole.numbered index bound]
  exact ⟨bound, whole.final index bound, List.getElem?_eq_getElem bound⟩

/-- The buffer of an assembly, read as what a collector holds. -/
structure Holding (assembly : FragmentAssembly) (state : Collected Nat Fragment) : Prop where
  current : assembly.currentId = state.current
  bytes : assembly.assembledBytes = 0
  slotted : Slotted assembly.fragments state.held
  arrived : assembly.fragmentsArrived = assembly.fragments.countP Option.isSome
  total : ∀ count, assembly.fragmentsTotal = some count ↔
    ∃ frag ∈ state.held, frag.final = true ∧ frag.fragmentNum + 1 = count

theorem Holding.start : Holding FragmentAssembly.new { current := 0, held := ∅ } :=
  ⟨rfl, rfl, Slotted.empty, rfl, by simp [FragmentAssembly.new]⟩

theorem Holding.reset {assembly : FragmentAssembly} {id : Nat} (current : assembly.currentId = id) :
    Holding assembly.reset { current := id, held := ∅ } :=
  ⟨current, rfl, Slotted.empty, rfl, by simp [FragmentAssembly.reset]⟩

namespace FragmentAssembly

/-- The slots once there is one for the fragment. -/
def padded (assembly : FragmentAssembly) (frag : Fragment) : List (Option Fragment) :=
  assembly.fragments ++ List.replicate (frag.fragmentNum + 1 - assembly.fragments.length) none

theorem padded_inside (assembly : FragmentAssembly) (frag : Fragment) :
    frag.fragmentNum < (assembly.padded frag).length ∧
      assembly.fragments.length ≤ (assembly.padded frag).length := by
  unfold padded
  rw [List.length_append, List.length_replicate]
  omega

/-- The outcomes of placing a fragment: a buffer of its own under a new id, else a conflict, a duplicate,
    or an empty slot filled. -/
inductive Placed (assembly : FragmentAssembly) (frag : Fragment) : Option FragmentAssembly → Prop
  | alone (other : assembly.currentId ≠ frag.id) :
      Placed assembly frag (some
        { fragments := (List.replicate (frag.fragmentNum + 1) none).set frag.fragmentNum (some frag)
          currentId := frag.id, fragmentsArrived := 1, fragmentsTotal := none, assembledBytes := 0 })
  | conflict {existing : Fragment} (current : assembly.currentId = frag.id)
      (slot : (assembly.padded frag)[frag.fragmentNum]? = some (some existing)) (differs : existing ≠ frag) :
      Placed assembly frag none
  | duplicate (current : assembly.currentId = frag.id)
      (slot : (assembly.padded frag)[frag.fragmentNum]? = some (some frag)) :
      Placed assembly frag (some { assembly with fragments := assembly.padded frag })
  | filled (current : assembly.currentId = frag.id)
      (slot : (assembly.padded frag)[frag.fragmentNum]? = some none) :
      Placed assembly frag (some { assembly with
        fragments := (assembly.padded frag).set frag.fragmentNum (some frag)
        fragmentsArrived := assembly.fragmentsArrived + 1 })

theorem place_placed (assembly : FragmentAssembly) (frag : Fragment) :
    Placed assembly frag (assembly.place frag) := by
  unfold place
  by_cases other : assembly.currentId ≠ frag.id
  · rw [if_pos other]
    exact .alone other
  · rw [if_neg other]
    have current : assembly.currentId = frag.id := not_not.mp other
    have inside := (assembly.padded_inside frag).1
    have found := List.getElem?_eq_getElem inside
    have slots : assembly.fragments ++ List.replicate (frag.fragmentNum + 1 - assembly.fragments.length) none =
        assembly.padded frag := rfl
    dsimp only
    rw [slots]
    cases slot : (assembly.padded frag)[frag.fragmentNum] with
    | none =>
      rw [slot] at found
      rw [found]
      exact .filled current found
    | some existing =>
      rw [slot] at found
      rw [found]
      dsimp only
      by_cases differs : existing ≠ frag
      · rw [if_pos differs]
        exact .conflict current found differs
      · rw [if_neg differs]
        obtain rfl : existing = frag := not_not.mp differs
        exact .duplicate current found

theorem filled_count {slots : List (Option Fragment)} {index : Nat} (empty : slots[index]? = some none)
    (frag : Fragment) :
    (slots.set index (some frag)).countP Option.isSome = slots.countP Option.isSome + 1 := by
  obtain ⟨inside, slot⟩ := List.getElem?_eq_some_iff.mp empty
  simp only [List.countP_set inside, slot, Option.isSome_none, Option.isSome_some, if_true, Bool.false_eq_true,
    if_false, Nat.sub_zero]

theorem place_spec {assembly : FragmentAssembly} {state : Collected Nat Fragment}
    (holding : Holding assembly state) (frag : Fragment)
    (agree : ∀ other ∈ state.held, state.current = frag.id →
      other.fragmentNum = frag.fragmentNum → other = frag) :
    ∃ placed, assembly.place frag = some placed ∧ placed.currentId = frag.id ∧
      placed.assembledBytes = 0 ∧ Slotted placed.fragments (state.accepted frag.id frag) ∧
      placed.fragmentsArrived = placed.fragments.countP Option.isSome ∧
      ∀ count, placed.fragmentsTotal = some count ↔ state.current = frag.id ∧
        ∃ other ∈ state.held, other.final = true ∧ other.fragmentNum + 1 = count := by
  have known : ∀ existing, assembly.currentId = frag.id →
      (assembly.padded frag)[frag.fragmentNum]? = some (some existing) → existing = frag := by
    intro existing current found
    obtain ⟨member, number⟩ := (holding.slotted.filled _ _).mp (padded_some.mp found)
    exact agree existing member (holding.current.symm.trans current) number
  have kept : assembly.currentId = frag.id →
      Slotted ((assembly.padded frag).set frag.fragmentNum (some frag)) (state.accepted frag.id frag) ∧
        (assembly.padded frag).countP Option.isSome = assembly.fragmentsArrived ∧
        ∀ count, assembly.fragmentsTotal = some count ↔ state.current = frag.id ∧
          ∃ other ∈ state.held, other.final = true ∧ other.fragmentNum + 1 = count := by
    intro current
    have same : state.current = frag.id := holding.current.symm.trans current
    have accepted : state.accepted frag.id frag = {other | other = frag ∨ other ∈ state.held} := by
      simp [Collected.accepted, same]
    rw [accepted]
    refine ⟨holding.slotted.fill frag fun other member => agree other member same, ?_, fun count => ?_⟩
    · exact (padded_count _ _).trans holding.arrived.symm
    · rw [holding.total count]
      exact ⟨fun found => ⟨same, found⟩, fun found => found.2⟩
  have outcome := assembly.place_placed frag
  generalize assembly.place frag = result at *
  cases outcome with
  | alone other =>
    rw [holding.current] at other
    have slotted := Slotted.empty.fill frag (by simp)
    refine ⟨_, rfl, rfl, rfl, ?_, ?_, by simp [other]⟩
    · simpa [Collected.accepted, other] using slotted
    · simp [List.countP_set]
  | conflict current slot differs => exact absurd (known _ current slot) differs
  | duplicate current slot =>
    obtain ⟨slotted, counted, total⟩ := kept current
    refine ⟨_, rfl, current, holding.bytes, ?_, counted.symm, total⟩
    obtain ⟨inside, here⟩ := List.getElem?_eq_some_iff.mp slot
    rw [← here, List.set_getElem_self] at slotted
    exact slotted
  | filled current slot =>
    obtain ⟨slotted, counted, total⟩ := kept current
    refine ⟨_, rfl, current, holding.bytes, slotted, ?_, total⟩
    rw [filled_count slot, counted]

/-- The recount of a truncation is never taken: no slot lies past a final fragment. -/
theorem noteFinal_spec {placed : FragmentAssembly} {state : Collected Nat Fragment} {frag : Fragment}
    {payload : Bytes} {parts : List Fragment} (whole : WholeSet frag.id payload parts)
    (member : frag ∈ parts) (genuine : ∀ other ∈ state.accepted frag.id frag, other ∈ parts)
    (current : placed.currentId = frag.id) (bytes : placed.assembledBytes = 0)
    (slotted : Slotted placed.fragments (state.accepted frag.id frag))
    (arrived : placed.fragmentsArrived = placed.fragments.countP Option.isSome)
    (total : ∀ count, placed.fragmentsTotal = some count ↔ state.current = frag.id ∧
      ∃ other ∈ state.held, other.final = true ∧ other.fragmentNum + 1 = count) :
    Holding (placed.noteFinal frag) { current := frag.id, held := state.accepted frag.id frag } := by
  obtain ⟨inside, last, -⟩ := whole.place member
  unfold noteFinal
  by_cases final : frag.final = true
  · have count := last.mp final
    have short : ¬frag.fragmentNum + 1 < placed.fragments.length := by
      intro long
      obtain ⟨other, held, past⟩ := slotted.tight _ long
      obtain ⟨bound, -, -⟩ := whole.place (genuine other held)
      omega
    simp only [final, if_true, if_neg short]
    refine ⟨current, bytes, slotted, arrived, ?_⟩
    intro sum
    constructor
    · intro same
      exact ⟨frag, .inl rfl, final, Option.some.inj same⟩
    · rintro ⟨other, held, otherFinal, rfl⟩
      obtain ⟨-, otherLast, -⟩ := whole.place (genuine other held)
      have := otherLast.mp otherFinal
      exact congrArg some (by omega)
  · rw [if_neg final]
    refine ⟨current, bytes, slotted, arrived, ?_⟩
    intro sum
    rw [total]
    constructor
    · rintro ⟨same, other, held, found⟩
      exact ⟨other, .inr ⟨same, held⟩, found⟩
    · rintro ⟨other, rfl | ⟨same, held⟩, found⟩
      · exact absurd found.1 final
      · exact ⟨same, other, held, found⟩

end FragmentAssembly

theorem Holding.slots_le {assembly : FragmentAssembly} {state : Collected Nat Fragment} {id : Nat}
    {payload : Bytes} {parts : List Fragment} (holding : Holding assembly state)
    (whole : WholeSet id payload parts) (genuine : ∀ frag ∈ state.held, frag ∈ parts) :
    assembly.fragments.length ≤ parts.length := by
  by_contra long
  obtain ⟨frag, held, past⟩ := holding.slotted.tight parts.length (Nat.lt_of_not_le long)
  obtain ⟨inside, -, -⟩ := whole.place (genuine frag held)
  omega

theorem Holding.slots_eq {assembly : FragmentAssembly} {state : Collected Nat Fragment} {id : Nat}
    {payload : Bytes} {parts : List Fragment} (holding : Holding assembly state)
    (whole : WholeSet id payload parts) (genuine : ∀ frag ∈ state.held, frag ∈ parts)
    (all : ∀ frag ∈ parts, frag ∈ state.held) : assembly.fragments = parts.map some := by
  have short := holding.slots_le whole genuine
  apply List.ext_getElem?
  intro index
  rw [List.getElem?_map]
  by_cases inside : index < parts.length
  · rw [List.getElem?_eq_getElem inside]
    exact (holding.slotted.filled index parts[index]).mpr
      ⟨all _ (List.getElem_mem inside), whole.numbered index inside⟩
  · rw [List.getElem?_eq_none (by omega), List.getElem?_eq_none (by omega)]
    rfl

theorem Holding.complete_iff {assembly : FragmentAssembly} {state : Collected Nat Fragment} {id : Nat}
    {payload : Bytes} {parts : List Fragment} (holding : Holding assembly state)
    (whole : WholeSet id payload parts) (genuine : ∀ frag ∈ state.held, frag ∈ parts) :
    assembly.fragmentsTotal = some assembly.fragmentsArrived ↔ ∀ frag ∈ parts, frag ∈ state.held := by
  have short := holding.slots_le whole genuine
  rw [holding.total, holding.arrived]
  constructor
  · rintro ⟨last, held, final, count⟩ frag member
    obtain ⟨-, isLast, -⟩ := whole.place (genuine last held)
    have full := isLast.mp final
    have counted : assembly.fragments.countP Option.isSome ≤ assembly.fragments.length :=
      List.countP_le_length
    have filled := List.countP_eq_length.mp (Nat.le_antisymm counted (by omega))
    obtain ⟨inside, -, place⟩ := whole.place member
    have bound : frag.fragmentNum < assembly.fragments.length := by omega
    obtain ⟨other, slot⟩ := Option.isSome_iff_exists.mp (filled _ (List.getElem_mem bound))
    obtain ⟨heldOther, number⟩ := (holding.slotted.filled frag.fragmentNum other).mp
      (by rw [List.getElem?_eq_getElem bound, slot])
    obtain ⟨-, -, otherPlace⟩ := whole.place (genuine other heldOther)
    rw [number, place] at otherPlace
    rw [Option.some.inj otherPlace]
    exact heldOther
  · intro all
    have some_parts := List.length_pos_iff.mpr whole.nonempty
    have bound : parts.length - 1 < parts.length := by omega
    refine ⟨parts[parts.length - 1], all _ (List.getElem_mem bound), ?_, ?_⟩
    · rw [whole.final _ bound]
      omega
    · rw [whole.numbered _ bound, holding.slots_eq whole genuine all, List.countP_map]
      have counted : parts.countP (Option.isSome ∘ some) = parts.length :=
        List.countP_eq_length.mpr fun _ _ => rfl
      omega

namespace FragmentAssembly

theorem gather_parts (parts : List Fragment) (bytes : Nat) (encoded : Bytes)
    (fits : bytes + (parts.flatMap Fragment.contents).length ≤ assemblyLimit) :
    gather (parts.map some) bytes encoded =
      .whole (bytes + (parts.flatMap Fragment.contents).length)
        (encoded ++ parts.flatMap Fragment.contents) := by
  induction parts generalizing bytes encoded with
  | nil => simp [gather]
  | cons frag parts ih =>
    rw [List.flatMap_cons, List.length_append] at fits
    rw [List.map_cons, gather, if_neg (by omega), ih _ _ (by omega), List.flatMap_cons,
      List.length_append, List.append_assoc, Nat.add_assoc]

theorem takeAssembly_whole {zlib : Zlib} {assembly : FragmentAssembly} {inst : TransportInstruction}
    {parts : List Fragment} {output : Bytes} (slots : assembly.fragments = parts.map some)
    (bytes : assembly.assembledBytes = 0)
    (packed : (parts.flatMap Fragment.contents).length ≤ assemblyLimit)
    (inflated : zlibDecompress zlib (parts.flatMap Fragment.contents) = .ok output)
    (parsed : TransportInstruction.decode output = .ok inst) :
    assembly.takeAssembly zlib = (some inst, assembly.reset) := by
  unfold takeAssembly
  rw [slots, bytes, gather_parts _ _ _ (by omega)]
  simp only [List.nil_append, inflated, parsed]
  rfl

theorem addFragment_spec {zlib : Zlib} {assembly : FragmentAssembly} {state : Collected Nat Fragment}
    {frag : Fragment} {inst : TransportInstruction} {payload output : Bytes} {parts : List Fragment}
    (holding : Holding assembly state) (whole : WholeSet frag.id payload parts) (member : frag ∈ parts)
    (genuine : ∀ other ∈ state.accepted frag.id frag, other ∈ parts)
    (packed : payload.length ≤ assemblyLimit) (inflated : zlibDecompress zlib payload = .ok output)
    (parsed : TransportInstruction.decode output = .ok inst) :
    ((∀ part ∈ parts, part ∈ state.accepted frag.id frag) ∧
        (assembly.addFragment zlib frag).1 = some inst ∧
        Holding (assembly.addFragment zlib frag).2 { current := frag.id, held := ∅ }) ∨
      ((¬∀ part ∈ parts, part ∈ state.accepted frag.id frag) ∧
        (assembly.addFragment zlib frag).1 = none ∧
        Holding (assembly.addFragment zlib frag).2
          { current := frag.id, held := state.accepted frag.id frag }) := by
  have agree : ∀ other ∈ state.held, state.current = frag.id →
      other.fragmentNum = frag.fragmentNum → other = frag := by
    intro other held same number
    obtain ⟨-, -, place⟩ := whole.place (genuine other (.inr ⟨same, held⟩))
    obtain ⟨-, -, framed⟩ := whole.place member
    rw [number, framed] at place
    exact (Option.some.inj place).symm
  obtain ⟨placed, taken, current, bytes, slotted, arrived, total⟩ := place_spec holding frag agree
  have noted := noteFinal_spec whole member genuine current bytes slotted arrived total
  have complete := noted.complete_iff whole genuine
  unfold addFragment
  rw [taken]
  by_cases all : ∀ part ∈ parts, part ∈ state.accepted frag.id frag
  · refine .inl ⟨all, ?_⟩
    simp only [if_pos (complete.mpr all)]
    rw [← whole.contents] at packed inflated
    rw [takeAssembly_whole (noted.slots_eq whole genuine all) noted.bytes packed inflated parsed]
    exact ⟨rfl, Holding.reset noted.current⟩
  · refine .inr ⟨all, ?_⟩
    simp only [if_neg (mt complete.mp all)]
    exact ⟨trivial, noted⟩

end FragmentAssembly

end MoshModel
