import Mathlib.Data.List.Nodup
import Mathlib.Data.List.Perm.Basic
import Mathlib.Logic.Function.Basic
import MoshClient.Library.Chain

namespace Chain

variable {Address Item : Type*} [DecidableEq Address]

def parent : Chain Address Item → Chain Address Item
  | nil => nil
  | cell _ _ parent => parent

def retain (counts : Address → Nat) : Chain Address Item → Address → Nat
  | nil => counts
  | cell address _ _ => Function.update counts address (counts address + 1)

/-- A cell that loses its last pointer goes, and with it its own pointer to the parent. -/
def release (counts : Address → Nat) : Chain Address Item → Address → Nat
  | nil => counts
  | cell address _ parent =>
    if counts address = 1 then release (Function.update counts address 0) parent
    else Function.update counts address (counts address - 1)

/-- The pointers to cells: those held outside, and one from each cell to its parent. -/
def pointers (cells roots : List (Chain Address Item)) : List (Option Address) :=
  (roots ++ cells.map parent).map address?

structure Counted (counts : Address → Nat) (cells roots : List (Chain Address Item)) : Prop where
  distinct : (cells.map address?).Nodup
  kept : ∀ chain ∈ roots ++ cells.map parent, chain = nil ∨ chain ∈ cells
  exact : ∀ address, counts address = (pointers cells roots).count (some address)
  held : ∀ chain ∈ cells, ∀ address ∈ chain.address?, 0 < counts address

variable {counts : Address → Nat} {cells roots : List (Chain Address Item)} {chain : Chain Address Item}

theorem Counted.start : Counted (fun _ : Address => 0) ([] : List (Chain Address Item)) [] where
  distinct := List.nodup_nil
  kept := nofun
  exact _ := rfl
  held := nofun

theorem Counted.perm {others : List (Chain Address Item)} (counted : Counted counts cells roots)
    (same : roots.Perm others) : Counted counts cells others where
  distinct := counted.distinct
  kept chain member := counted.kept chain ((same.append_right _).mem_iff.mpr member)
  exact address := (counted.exact address).trans (((same.append_right _).map _).count_eq _)
  held := counted.held

theorem Counted.unique (counted : Counted counts cells roots) {one other : Chain Address Item} (first : one ∈ cells)
    (second : other ∈ cells) (same : one.address? = other.address?) : one = other :=
  List.inj_on_of_nodup_map counted.distinct first second same

theorem Counted.live (counted : Counted counts cells roots) {root part : Chain Address Item} (member : root ∈ roots)
    (within : part.Within root) : part = nil ∨ part ∈ cells := by
  have reached : ∀ chain : Chain Address Item, (chain = nil ∨ chain ∈ cells) → part.Within chain →
      part = nil ∨ part ∈ cells := by
    intro chain here within
    induction within with
    | here => exact here
    | @parent address item chain _ ih =>
      apply ih
      have inside := here.resolve_left nofun
      exact counted.kept chain (List.mem_append_right _ (List.mem_map.mpr ⟨_, inside, rfl⟩))
  exact reached root (counted.kept root (List.mem_append_left _ member)) within

theorem Counted.coherent (counted : Counted counts cells roots) : Coherent roots := by
  intro left isLeft right isRight one oneWithin other otherWithin same
  rcases counted.live isLeft oneWithin with rfl | first
  · cases other with
    | nil => rfl
    | cell address item parent => cases same
  · rcases counted.live isRight otherWithin with rfl | second
    · cases one with
      | nil => rfl
      | cell address item parent => cases same
    · exact counted.unique first second same

theorem Counted.fresh (counted : Counted counts cells roots) {address : Address} (free : counts address = 0)
    {root part : Chain Address Item} (member : root ∈ roots) (within : part.Within root) :
    part.address? ≠ some address := by
  intro named
  rcases counted.live member within with rfl | inside
  · cases named
  · have positive := counted.held part inside address named
    omega

theorem Counted.reorder {others : List (Chain Address Item)} (counted : Counted counts cells roots)
    (same : cells.Perm others) : Counted counts others roots where
  distinct := (same.map _).nodup_iff.mp counted.distinct
  kept chain member := by
    have before : chain ∈ roots ++ cells.map parent := (((same.map _).append_left _).mem_iff).mpr member
    rw [← same.mem_iff]
    exact counted.kept chain before
  exact address := (counted.exact address).trans ((((same.map _).append_left _).map _).count_eq _)
  held chain member := counted.held chain (same.mem_iff.mpr member)

omit [DecidableEq Address] in
theorem parents_cell (address : Address) (item : Item) (parent : Chain Address Item)
    (cells roots : List (Chain Address Item)) :
    (roots ++ (cell address item parent :: cells).map Chain.parent).Perm (parent :: roots ++ cells.map Chain.parent) :=
  List.perm_middle

omit [DecidableEq Address] in
theorem pointers_cell (address : Address) (item : Item) (parent : Chain Address Item)
    (cells roots : List (Chain Address Item)) :
    (pointers (cell address item parent :: cells) (cell address item parent :: roots)).Perm
      (some address :: pointers cells (parent :: roots)) :=
  ((parents_cell address item parent cells roots).map address?).cons (some address)

theorem Counted.nil (counted : Counted counts cells roots) : Counted counts cells (.nil :: roots) where
  distinct := counted.distinct
  kept other inside := by
    rcases List.mem_cons.mp inside with rfl | before
    · exact .inl rfl
    · exact counted.kept other before
  exact address := by
    simpa [pointers, address?] using counted.exact address
  held := counted.held

theorem retain_other {address : Address} (other : chain.address? ≠ some address) :
    Chain.retain counts chain address = counts address := by
  cases chain with
  | nil => rfl
  | cell counter item parent =>
    apply Function.update_of_ne
    rintro rfl
    exact other rfl

theorem Counted.retain (counted : Counted counts cells roots) (member : chain ∈ roots) :
    Counted (retain counts chain) cells (chain :: roots) where
  distinct := counted.distinct
  kept other inside := by
    rcases List.mem_cons.mp inside with rfl | before
    · exact counted.kept _ (List.mem_append_left _ member)
    · exact counted.kept other before
  exact address := by
    have before := counted.exact address
    cases chain with
    | nil => simpa [Chain.retain, pointers, address?] using before
    | cell other item parent =>
      by_cases same : address = other
      · subst same
        simpa [Chain.retain, pointers, address?] using before
      · simpa [Chain.retain, pointers, address?, Function.update_of_ne same, Ne.symm same] using before
  held other inside address named := by
    have before := counted.held other inside address named
    cases chain with
    | nil => exact before
    | cell counter item parent =>
      by_cases same : address = counter
      · simp [Chain.retain, same]
      · simpa [Chain.retain, Function.update_of_ne same] using before

theorem Counted.allocate {parent : Chain Address Item} (counted : Counted counts cells (parent :: roots))
    {address : Address} (free : counts address = 0) (item : Item) :
    Counted (Function.update counts address 1) (cell address item parent :: cells) (cell address item parent :: roots) where
  distinct := by
    rw [List.map_cons, List.nodup_cons]
    refine ⟨fun taken => ?_, counted.distinct⟩
    obtain ⟨chain, inside, named⟩ := List.mem_map.mp taken
    have positive := counted.held chain inside address named
    omega
  kept chain member := by
    rcases List.mem_cons.mp member with rfl | later
    · exact .inr (List.mem_cons_self ..)
    · have before := (parents_cell address item parent cells roots).mem_iff.mp later
      exact (counted.kept chain before).imp_right (List.mem_cons_of_mem _)
  exact other := by
    have before := counted.exact other
    rw [(pointers_cell address item parent cells roots).count_eq]
    by_cases same : other = address
    · subst same
      rw [Function.update_self, List.count_cons_self, ← before, free]
    · rw [Function.update_of_ne same, List.count_cons_of_ne (by simpa using Ne.symm same), before]
  held chain member other named := by
    by_cases same : other = address
    · simp [same]
    · rw [Function.update_of_ne same]
      rcases List.mem_cons.mp member with rfl | before
      · cases named
        exact absurd rfl same
      · exact counted.held chain before other named

theorem Counted.forget {address : Address} {item : Item} {parent : Chain Address Item}
    (counted : Counted counts (cell address item parent :: cells) (cell address item parent :: roots))
    (last : counts address = 1) : Counted (Function.update counts address 0) cells (parent :: roots) := by
  have left : ∀ other, counts other = (some address :: pointers cells (parent :: roots)).count (some other) := by
    intro other
    rw [counted.exact other, (pointers_cell address item parent cells roots).count_eq]
  have none : some address ∉ pointers cells (parent :: roots) := by
    have here := left address
    rw [last, List.count_cons_self] at here
    exact List.count_eq_zero.mp (by omega)
  have distinct := counted.distinct
  rw [List.map_cons, List.nodup_cons] at distinct
  refine ⟨distinct.2, ?_, ?_, ?_⟩
  · intro chain member
    have before := (parents_cell address item parent cells roots).mem_iff.mpr member
    apply (counted.kept chain (List.mem_cons_of_mem _ before)).imp_right
    intro inside
    apply (List.mem_cons.mp inside).resolve_left
    rintro rfl
    exact none (List.mem_map.mpr ⟨_, member, rfl⟩)
  · intro other
    by_cases same : other = address
    · subst same
      rw [Function.update_self, List.count_eq_zero.mpr none]
    · rw [Function.update_of_ne same, left other, List.count_cons_of_ne (by simpa using Ne.symm same)]
  · intro chain member other named
    have apart : other ≠ address := by
      rintro rfl
      exact distinct.1 (List.mem_map.mpr ⟨chain, member, named⟩)
    rw [Function.update_of_ne apart]
    exact counted.held chain (List.mem_cons_of_mem _ member) other named

theorem Counted.share {address : Address} {item : Item} {parent : Chain Address Item}
    (counted : Counted counts cells (cell address item parent :: roots)) (shared : 1 < counts address) :
    Counted (Function.update counts address (counts address - 1)) cells roots where
  distinct := counted.distinct
  kept chain member := counted.kept chain (List.mem_cons_of_mem _ member)
  exact other := by
    have before : counts other = (some address :: pointers cells roots).count (some other) := counted.exact other
    by_cases same : other = address
    · subst same
      rw [List.count_cons_self] at before
      rw [Function.update_self, before, Nat.add_sub_cancel]
    · rw [Function.update_of_ne same, before, List.count_cons_of_ne (by simpa using Ne.symm same)]
  held chain member other named := by
    have before := counted.held chain member other named
    by_cases same : other = address
    · subst same
      rw [Function.update_self]
      omega
    · rwa [Function.update_of_ne same]

/-- Dropping a pointer frees just the cells that nothing else reaches. -/
theorem Counted.release (counted : Counted counts cells (chain :: roots)) :
    ∃ fewer, Counted (release counts chain) fewer roots := by
  induction chain generalizing counts cells with
  | nil =>
    refine ⟨cells, counted.distinct, fun chain member => counted.kept chain (List.mem_cons_of_mem _ member),
      fun address => ?_, counted.held⟩
    simpa [Chain.release, pointers, address?] using counted.exact address
  | cell address item parent ih =>
    have inside := (counted.kept _ (List.mem_cons_self ..)).resolve_left fun empty => by cases empty
    have positive := counted.held _ inside address rfl
    rw [Chain.release]
    split
    · rename_i last
      obtain ⟨front, back, rfl⟩ := List.append_of_mem inside
      exact ih ((counted.reorder List.perm_middle).forget last)
    · exact ⟨cells, counted.share (by omega)⟩

end Chain
