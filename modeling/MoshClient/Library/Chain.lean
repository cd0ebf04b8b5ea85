import Mathlib.Data.List.Basic

/-- A persistent list as its cells lie in memory: each at an address, pointing to its parent. -/
inductive Chain (Address Item : Type*) where
  | nil
  | cell (address : Address) (item : Item) (parent : Chain Address Item)
deriving DecidableEq

namespace Chain

variable {Address Item : Type*}

def address? : Chain Address Item → Option Address
  | nil => none
  | cell address _ _ => some address

def items : Chain Address Item → List Item
  | nil => []
  | cell _ item parent => item :: parent.items

def addresses : Chain Address Item → List Address
  | nil => []
  | cell address _ parent => address :: parent.addresses

def above : Nat → Chain Address Item → Chain Address Item
  | 0, chain => chain
  | _ + 1, nil => nil
  | steps + 1, cell _ _ parent => above steps parent

def extend (chain : Chain Address Item) (cells : List (Address × Item)) : Chain Address Item :=
  cells.foldl (fun chain pair => cell pair.1 pair.2 chain) chain

inductive Within (part : Chain Address Item) : Chain Address Item → Prop
  | here : Within part part
  | parent {address : Address} {item : Item} {chain : Chain Address Item} :
      Within part chain → Within part (cell address item chain)

/-- Among the cells that the roots reach, the address determines the cell. -/
def Coherent (roots : List (Chain Address Item)) : Prop :=
  ∀ left ∈ roots, ∀ right ∈ roots, ∀ one : Chain Address Item, one.Within left →
    ∀ other : Chain Address Item, other.Within right → one.address? = other.address? → one = other

theorem items_above (steps : Nat) (chain : Chain Address Item) :
    (above steps chain).items = chain.items.drop steps := by
  induction steps generalizing chain with
  | zero => rfl
  | succ steps ih =>
    cases chain with
    | nil => rfl
    | cell address item parent => exact ih parent

theorem within_above (steps : Nat) (chain : Chain Address Item) : (above steps chain).Within chain := by
  induction steps generalizing chain with
  | zero => exact .here
  | succ steps ih =>
    cases chain with
    | nil => exact .here
    | cell address item parent => exact .parent (ih parent)

theorem mem_addresses_of_within {part chain : Chain Address Item} (within : part.Within chain)
    {address : Address} (named : part.address? = some address) : address ∈ chain.addresses := by
  induction within with
  | here =>
    cases part with
    | nil => cases named
    | cell other item parent =>
      cases named
      exact List.mem_cons_self
  | parent _ ih => exact List.mem_cons_of_mem _ ih

theorem items_extend (chain : Chain Address Item) (cells : List (Address × Item)) :
    (chain.extend cells).items = (cells.map Prod.snd).reverse ++ chain.items := by
  induction cells generalizing chain with
  | nil => rfl
  | cons entry cells ih =>
    rw [show chain.extend (entry :: cells) = (cell entry.1 entry.2 chain).extend cells from rfl, ih, List.map_cons,
      List.reverse_cons, List.append_assoc]
    rfl

theorem mem_items_extend {chain : Chain Address Item} {cells : List (Address × Item)} {item : Item}
    (member : item ∈ (chain.extend cells).items) : (∃ entry ∈ cells, entry.2 = item) ∨ item ∈ chain.items := by
  induction cells generalizing chain with
  | nil => exact .inr member
  | cons entry cells ih =>
    have split := @ih (.cell entry.1 entry.2 chain) member
    rcases split with ⟨later, inside, same⟩ | before
    · exact .inl ⟨later, List.mem_cons_of_mem _ inside, same⟩
    · rcases List.mem_cons.mp before with rfl | before
      · exact .inl ⟨entry, List.mem_cons_self, rfl⟩
      · exact .inr before

/-- In coherent memory, two pointers that are equal reach the same cells. -/
theorem Coherent.eq_of_address {roots : List (Chain Address Item)} (coherent : Coherent roots)
    {left right : Chain Address Item} (leftMember : left ∈ roots) (rightMember : right ∈ roots) (steps : Nat)
    (same : left.address? = (above steps right).address?) : left = above steps right :=
  coherent left leftMember right rightMember left .here _ (within_above steps right) same

theorem Coherent.mono {roots fewer : List (Chain Address Item)} (coherent : Coherent roots)
    (subset : ∀ chain ∈ fewer, chain ∈ roots) : Coherent fewer :=
  fun left leftMember right rightMember =>
    coherent left (subset left leftMember) right (subset right rightMember)

theorem Coherent.nil : Coherent [(nil : Chain Address Item)] := by
  intro left leftMember right rightMember one oneWithin other otherWithin _
  rw [List.mem_singleton] at leftMember rightMember
  subst leftMember rightMember
  cases oneWithin
  cases otherWithin
  rfl

theorem Coherent.cell {roots : List (Chain Address Item)} (coherent : Coherent roots)
    {parent : Chain Address Item} (member : parent ∈ roots) {address : Address}
    (fresh : ∀ root ∈ roots, address ∉ root.addresses) (item : Item) :
    Coherent (.cell address item parent :: roots) := by
  -- what the new root reaches is the new cell or reached already
  have reached : ∀ root ∈ Chain.cell address item parent :: roots, ∀ part : Chain Address Item,
      part.Within root → part = .cell address item parent ∨ ∃ old ∈ roots, part.Within old := by
    intro root isRoot part within
    rcases List.mem_cons.mp isRoot with rfl | isOld
    · cases within with
      | here => exact .inl rfl
      | parent within => exact .inr ⟨parent, member, within⟩
    · exact .inr ⟨root, isOld, within⟩
  have distinct : ∀ part : Chain Address Item, (∃ old ∈ roots, part.Within old) →
      part.address? ≠ some address := by
    rintro part ⟨old, isOld, within⟩ named
    exact fresh old isOld (mem_addresses_of_within within named)
  intro left isLeft right isRight one oneWithin other otherWithin same
  rcases reached left isLeft one oneWithin with rfl | ⟨leftOld, isLeftOld, oneWithin⟩
  · rcases reached right isRight other otherWithin with rfl | old
    · rfl
    · exact absurd same.symm (distinct other old)
  · rcases reached right isRight other otherWithin with rfl | ⟨rightOld, isRightOld, otherWithin⟩
    · exact absurd same (distinct one ⟨leftOld, isLeftOld, oneWithin⟩)
    · exact coherent leftOld isLeftOld rightOld isRightOld one oneWithin other otherWithin same

theorem addresses_cell (address : Address) (item : Item) (parent : Chain Address Item) :
    (cell address item parent).addresses = address :: parent.addresses := rfl

theorem Coherent.extend {roots : List (Chain Address Item)} (coherent : Coherent roots)
    {base : Chain Address Item} (member : base ∈ roots) {cells : List (Address × Item)}
    (distinct : (cells.map Prod.fst).Nodup)
    (fresh : ∀ pair ∈ cells, ∀ root ∈ roots, pair.1 ∉ root.addresses) :
    Coherent (base.extend cells :: roots) := by
  induction cells generalizing base roots with
  | nil =>
    refine coherent.mono fun chain isRoot => ?_
    rcases List.mem_cons.mp isRoot with rfl | isOld
    · exact member
    · exact isOld
  | cons pair cells ih =>
    rw [List.map_cons, List.nodup_cons] at distinct
    have first := coherent.cell member (fresh pair List.mem_cons_self) pair.2
    refine (ih first List.mem_cons_self distinct.2 ?_).mono fun chain isRoot => ?_
    · intro later isLater root isRoot
      have old := fresh later (List.mem_cons_of_mem _ isLater)
      rcases List.mem_cons.mp isRoot with rfl | isOld
      · rw [addresses_cell, List.mem_cons, not_or]
        refine ⟨?_, old base member⟩
        rintro same
        exact distinct.1 (List.mem_map.mpr ⟨later, isLater, same⟩)
      · exact old root isOld
    · rcases List.mem_cons.mp isRoot with rfl | isOld
      · exact List.mem_cons_self
      · exact List.mem_cons_of_mem _ (List.mem_cons_of_mem _ isOld)

end Chain
