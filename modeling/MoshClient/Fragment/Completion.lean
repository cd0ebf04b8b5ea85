import MoshClient.Fragment.HostileReassembly

namespace MoshModel

open Collector Fragmenter

namespace FragmentAssembly

/-- The assembly on which `add_fragment` runs its completion step, where it does. -/
def completing (assembly : FragmentAssembly) (frag : Fragment) : Option FragmentAssembly :=
  (assembly.place frag).bind fun placed =>
    let noted := placed.noteFinal frag
    if noted.fragmentsTotal = some noted.fragmentsArrived then some noted else none

structure Cleared (assembly : FragmentAssembly) : Prop where
  fragments : assembly.fragments = []
  arrived : assembly.fragmentsArrived = 0
  total : assembly.fragmentsTotal = none
  bytes : assembly.assembledBytes = 0

theorem Cleared.holding {assembly : FragmentAssembly} (cleared : assembly.Cleared) :
    Holding assembly { current := assembly.currentId, held := ∅ } := by
  have same : assembly = assembly.reset := by
    obtain ⟨fragments, arrived, total, bytes⟩ := cleared
    cases assembly
    simp_all [FragmentAssembly.reset]
  rw [same]
  exact Holding.reset rfl

theorem completing_eq {assembly noted : FragmentAssembly} {frag : Fragment}
    (complete : assembly.completing frag = some noted) (zlib : Zlib) :
    assembly.addFragment zlib frag = noted.takeAssembly zlib := by
  obtain ⟨placed, taken, counted⟩ := Option.bind_eq_some_iff.mp complete
  unfold addFragment
  rw [taken]
  dsimp only at counted ⊢
  split at counted
  · rename_i full
    cases counted
    rw [if_pos full]
  · cases counted

theorem completing_sound {delivered : List Fragment} {assembly noted : FragmentAssembly} {frag : Fragment}
    (sound : Sound delivered assembly) (complete : assembly.completing frag = some noted) :
    noted.fragments ≠ [] ∧ noted.currentId = frag.id := by
  obtain ⟨placed, taken, counted⟩ := Option.bind_eq_some_iff.mp complete
  obtain ⟨placedSound, slot, current⟩ := place_sound sound taken
  have notedSound := noteFinal_sound placedSound slot
  dsimp only at counted
  split at counted
  · rename_i full
    cases counted
    obtain ⟨positive, bound, -⟩ := notedSound.total _ full
    constructor
    · apply List.ne_nil_of_length_pos
      omega
    · rw [noteFinal_currentId, current]
  · cases counted

theorem takeAssembly_currentId (zlib : Zlib) (assembly : FragmentAssembly) :
    (assembly.takeAssembly zlib).2.currentId = assembly.currentId := by
  unfold takeAssembly
  split
  · rfl
  · rfl
  · dsimp only
    split
    · rfl
    · split <;> rfl

end FragmentAssembly

def decodes (zlib : Zlib) (encoded : Bytes) (inst : TransportInstruction) : Prop :=
  ∃ inflated, zlibDecompress zlib encoded = .ok inflated ∧ TransportInstruction.decode inflated = .ok inst

/-- The slots are all full and within the cap, and their contents do not inflate or do not parse. -/
def FragmentAssembly.Spoiled (zlib : Zlib) (assembly : FragmentAssembly) : Prop :=
  ∃ parts : List Fragment, assembly.fragments = parts.map some ∧
    assembly.assembledBytes + (parts.flatMap Fragment.contents).length ≤ assemblyLimit ∧
    ∀ inst, ¬decodes zlib (parts.flatMap Fragment.contents) inst

theorem FragmentAssembly.takeAssembly_cleared (zlib : Zlib) {assembly : FragmentAssembly}
    (nonempty : assembly.fragments ≠ []) :
    (assembly.takeAssembly zlib).2.Cleared ↔ ¬assembly.Spoiled zlib := by
  have whole : ∀ parts : List Fragment, assembly.fragments = parts.map some →
      assembly.assembledBytes + (parts.flatMap Fragment.contents).length ≤ assemblyLimit →
      gather assembly.fragments assembly.assembledBytes [] =
        .whole (assembly.assembledBytes + (parts.flatMap Fragment.contents).length)
          (parts.flatMap Fragment.contents) := by
    intro parts slots fits
    rw [slots, gather_parts _ _ _ fits, List.nil_append]
  have reset : assembly.reset.Cleared := ⟨rfl, rfl, rfl, rfl⟩
  unfold takeAssembly
  cases gathered : gather assembly.fragments assembly.assembledBytes [] with
  | tooLarge =>
    apply iff_of_true reset
    rintro ⟨parts, slots, fits, -⟩
    rw [whole parts slots fits] at gathered
    cases gathered
  | hole =>
    apply iff_of_true reset
    rintro ⟨parts, slots, fits, -⟩
    rw [whole parts slots fits] at gathered
    cases gathered
  | whole bytes encoded =>
    obtain ⟨parts, slots, joined, counted, within⟩ := gather_whole gathered
    rw [List.nil_append] at joined
    subst joined
    have fits := within.resolve_left nonempty
    rw [counted] at fits
    have spoiled : assembly.Spoiled zlib ↔ ∀ inst, ¬decodes zlib (parts.flatMap Fragment.contents) inst := by
      constructor
      · rintro ⟨others, same, -, undecoded⟩
        obtain rfl : parts = others := List.map_injective_iff.mpr (Option.some_injective _) (slots.symm.trans same)
        exact undecoded
      · exact fun undecoded => ⟨parts, slots, fits, undecoded⟩
    rw [spoiled]
    dsimp only
    cases inflated : zlibDecompress zlib (parts.flatMap Fragment.contents) with
    | error e =>
      apply iff_of_false
      · exact fun cleared => nonempty cleared.fragments
      · simp [decodes, inflated]
    | ok output =>
      dsimp only
      cases parsed : TransportInstruction.decode output with
      | error e =>
        apply iff_of_false
        · exact fun cleared => nonempty cleared.fragments
        · simp [decodes, inflated, parsed]
      | ok inst =>
        apply iff_of_true ⟨rfl, rfl, rfl, rfl⟩
        exact fun undecoded => undecoded inst ⟨output, inflated, parsed⟩

structure ValidSet (zlib : Zlib) (id : Nat) (inst : TransportInstruction) (parts : List Fragment) : Prop where
  whole : WholeSet id (parts.flatMap Fragment.contents) parts
  packed : (parts.flatMap Fragment.contents).length ≤ assemblyLimit
  decoded : decodes zlib (parts.flatMap Fragment.contents) inst

namespace FragmentAssembly

def feed (zlib : Zlib) (assembly : FragmentAssembly) (frags : List Fragment) : FragmentAssembly :=
  frags.foldl (fun assembly frag => (assembly.addFragment zlib frag).2) assembly

def Returns (zlib : Zlib) (assembly : FragmentAssembly) (frags : List Fragment) (inst : TransportInstruction) :
    Prop :=
  ∃ before frag after, frags = before ++ frag :: after ∧
    ((assembly.feed zlib before).addFragment zlib frag).1 = some inst

/-- Every part of the set comes in, whatever the order and the repetitions, and the instruction comes out. -/
def Delivers (zlib : Zlib) (assembly : FragmentAssembly) (inst : TransportInstruction) (parts : List Fragment) :
    Prop :=
  ∀ frags : List Fragment, (∀ frag ∈ frags, frag ∈ parts) → (∀ part ∈ parts, part ∈ frags) →
    assembly.Returns zlib frags inst

theorem Returns.later {zlib : Zlib} {assembly : FragmentAssembly} {frag : Fragment} {frags : List Fragment}
    {inst : TransportInstruction} (returns : (assembly.addFragment zlib frag).2.Returns zlib frags inst) :
    assembly.Returns zlib (frag :: frags) inst := by
  obtain ⟨before, part, after, split, answer⟩ := returns
  exact ⟨frag :: before, part, after, by rw [split, List.cons_append], answer⟩

/-- The induction is on what is still to come; a part is held or among it. -/
theorem arrives_of_valid {zlib : Zlib} {id : Nat} {inst : TransportInstruction} {parts : List Fragment}
    (valid : ValidSet zlib id inst parts) (frags : List Fragment) :
    ∀ (assembly : FragmentAssembly) (held : Set Fragment),
      Holding assembly { current := id, held := held } →
      (∀ frag ∈ held, frag ∈ parts) → (∃ part ∈ parts, part ∉ held) → (∀ frag ∈ frags, frag ∈ parts) →
      (∀ part ∈ parts, part ∈ held ∨ part ∈ frags) → assembly.Returns zlib frags inst := by
  obtain ⟨output, inflated, parsed⟩ := valid.decoded
  induction frags with
  | nil =>
    rintro assembly held - - ⟨part, member, missing⟩ - all
    rcases all part member with old | coming
    · exact absurd old missing
    · cases coming
  | cons frag frags ih =>
    intro assembly held holding genuine lacking ours all
    have member : frag ∈ parts := ours frag (List.mem_cons_self ..)
    have same : frag.id = id := valid.whole.ids frag member
    subst same
    have accepted : ∀ other, other ∈ Collected.accepted { current := frag.id, held := held } frag.id frag ↔
        other = frag ∨ other ∈ held := by
      intro other
      simp [Collected.accepted]
    have ourAccepted : ∀ other ∈ Collected.accepted { current := frag.id, held := held } frag.id frag,
        other ∈ parts := by
      intro other taken
      rcases (accepted other).mp taken with rfl | old
      · exact member
      · exact genuine other old
    rcases addFragment_spec holding valid.whole member ourAccepted valid.packed inflated parsed with
      ⟨-, answer, -⟩ | ⟨missing, -, after⟩
    · exact ⟨[], frag, frags, rfl, answer⟩
    · apply Returns.later
      apply ih _ _ after ourAccepted (by simpa using missing)
      · exact fun other old => ours other (List.mem_cons_of_mem _ old)
      · intro part old
        rw [accepted]
        rcases all part old with held | coming
        · exact .inl (.inr held)
        · rcases List.mem_cons.mp coming with rfl | coming
          · exact .inl (.inl rfl)
          · exact .inr coming

theorem Cleared.delivers {zlib : Zlib} {assembly : FragmentAssembly} {inst : TransportInstruction}
    {parts : List Fragment} (cleared : assembly.Cleared) (valid : ValidSet zlib assembly.currentId inst parts) :
    assembly.Delivers zlib inst parts := by
  intro frags ours all
  obtain ⟨part, member⟩ := List.exists_mem_of_ne_nil parts valid.whole.nonempty
  exact arrives_of_valid valid frags assembly ∅ cleared.holding (by simp) ⟨part, member, by simp⟩ ours
    fun part member => .inr (all part member)

end FragmentAssembly

open FragmentAssembly

def CompletionResets (zlib : Zlib) (deliveries : List Fragment) (frag : Fragment) : Prop :=
  ((receiveAll zlib deliveries).2.completing frag).isSome = true →
    (receiveAll zlib (deliveries ++ [frag])).2.Cleared ∧
      ∀ inst parts, ValidSet zlib frag.id inst parts →
        (receiveAll zlib (deliveries ++ [frag])).2.Delivers zlib inst parts

/-- The exits through `?` keep the slots: those of a full set within the cap that does not decode. -/
theorem completion_resets_iff (zlib : Zlib) (deliveries : List Fragment) (frag : Fragment) :
    CompletionResets zlib deliveries frag ↔
      ∀ noted ∈ (receiveAll zlib deliveries).2.completing frag, ¬noted.Spoiled zlib := by
  unfold CompletionResets
  cases complete : (receiveAll zlib deliveries).2.completing frag with
  | none => simp
  | some noted =>
    obtain ⟨nonempty, current⟩ := completing_sound (receiveAll_sound zlib deliveries) complete
    have after : (receiveAll zlib (deliveries ++ [frag])).2 = (noted.takeAssembly zlib).2 := by
      rw [receiveAll_append, completing_eq complete]
    have id : (receiveAll zlib (deliveries ++ [frag])).2.currentId = frag.id := by
      rw [after, takeAssembly_currentId, current]
    have cleared := takeAssembly_cleared zlib nonempty
    rw [← after] at cleared
    constructor
    · rintro resets _ ⟨⟩
      exact cleared.mp (resets rfl).1
    · intro unspoiled _
      have reset := cleared.mpr (unspoiled noted rfl)
      refine ⟨reset, fun inst parts valid => reset.delivers ?_⟩
      rw [id]
      exact valid

theorem completion_keeps_corrupt :
    ¬∀ zlib : Zlib, zlib.Inverse → ∀ (deliveries : List Fragment) (frag : Fragment),
      CompletionResets zlib deliveries frag := by
  intro claim
  have resets := claim sampleZlib sampleZlib_inverse [] ⟨1, 0, true, [1]⟩ (by decide)
  have kept : (receiveAll sampleZlib ([] ++ [⟨1, 0, true, [1]⟩])).2.fragmentsArrived = 1 := by decide
  rw [resets.1.arrived] at kept
  cases kept

end MoshModel
