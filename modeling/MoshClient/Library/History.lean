import Mathlib.Data.List.Basic

namespace History

variable {Entry : Type*} {past : List Entry} {entry last : Entry}

theorem mem_snoc : entry ∈ past ++ [last] ↔ entry ∈ past ∨ entry = last := by
  rw [List.mem_append, List.mem_singleton]

theorem pairwise_snoc {relation : Entry → Entry → Prop} :
    (past ++ [last]).Pairwise relation ↔ past.Pairwise relation ∧ ∀ entry ∈ past, relation entry last := by
  rw [List.pairwise_append]
  constructor
  · rintro ⟨ordered, -, before⟩
    exact ⟨ordered, fun entry member => before entry member last (List.mem_singleton.mpr rfl)⟩
  · rintro ⟨ordered, before⟩
    refine ⟨ordered, List.pairwise_singleton _ _, fun entry member later isLast => ?_⟩
    rw [List.mem_singleton.mp isLast]
    exact before entry member

end History
