import MoshClient.Library.History

namespace PartitionPoint

variable {Item : Type*}

def searchBetween (below : Item → Bool) (items : List Item) (low high : Nat) : Nat :=
  if low < high then
    let middle := low + (high - low) / 2
    if items[middle]?.any below then searchBetween below items (middle + 1) high
    else searchBetween below items low middle
  else low
termination_by high - low

def partitionPoint (below : Item → Bool) (items : List Item) : Nat := searchBetween below items 0 items.length

variable {below : Item → Bool} {front rest : List Item}

theorem searchBetween_eq (holds : ∀ item ∈ front, below item = true)
    (fails : ∀ item ∈ rest, below item = false) (low high : Nat) (lower : low ≤ front.length)
    (upper : front.length ≤ high) : searchBetween below (front ++ rest) low high = front.length := by
  induction low, high using searchBetween.induct below (front ++ rest) with
  | case1 low high between middle found ih =>
    rw [searchBetween, if_pos between, if_pos found]
    apply ih ?_ upper
    by_contra beyond
    rw [List.getElem?_append_right (by omega)] at found
    obtain ⟨item, here, yes⟩ := (Option.any_eq_true _ _).mp found
    rw [fails item (List.mem_of_getElem? here)] at yes
    cases yes
  | case2 low high between middle missed ih =>
    rw [searchBetween, if_pos between, if_neg missed]
    apply ih lower
    by_contra inside
    apply missed
    have position : middle < front.length := Nat.lt_of_not_le inside
    rw [List.getElem?_append_left position, List.getElem?_eq_getElem position]
    exact holds _ (List.getElem_mem position)
  | case3 low high done =>
    rw [searchBetween, if_neg done]
    omega

theorem partitionPoint_append (holds : ∀ item ∈ front, below item = true)
    (fails : ∀ item ∈ rest, below item = false) : partitionPoint below (front ++ rest) = front.length := by
  apply searchBetween_eq holds fails
  · exact Nat.zero_le _
  · rw [List.length_append]
    exact Nat.le_add_right _ _

theorem exists_split {items : List Item}
    (ordered : items.Pairwise fun earlier later => below later = true → below earlier = true) :
    ∃ front rest, items = front ++ rest ∧ (∀ item ∈ front, below item = true) ∧
      ∀ item ∈ rest, below item = false := by
  induction items with
  | nil => exact ⟨[], [], rfl, nofun, nofun⟩
  | cons item items ih =>
    have order := List.pairwise_cons.mp ordered
    by_cases first : below item = true
    · obtain ⟨front, rest, rfl, holds, fails⟩ := ih order.2
      exact ⟨item :: front, rest, rfl, List.forall_mem_cons.mpr ⟨first, holds⟩, fails⟩
    · refine ⟨[], item :: items, rfl, nofun, List.forall_mem_cons.mpr ⟨Bool.eq_false_iff.mpr first, ?_⟩⟩
      intro later member
      exact Bool.eq_false_iff.mpr fun found => first (order.1 later member found)

end PartitionPoint
