import Mathlib.Algebra.Order.Floor.Div
import Mathlib.Data.List.Basic

namespace Pieces

/-- How many pieces of a size a whole is cut into; an empty whole is one empty piece. -/
def count (size total : Nat) : Nat := max 1 (total ⌈/⌉ size)

variable {size total : Nat}

theorem count_le_iff (positive : 0 < size) {bound : Nat} (some_piece : 0 < bound) :
    count size total ≤ bound ↔ total ≤ size * bound := by
  unfold count
  rw [max_le_iff, ceilDiv_le_iff_le_smul positive, smul_eq_mul]
  exact and_iff_right some_piece

theorem count_of_le (positive : 0 < size) (fits : total ≤ size) : count size total = 1 := by
  apply Nat.le_antisymm
  · rw [count_le_iff positive Nat.one_pos, Nat.mul_one]
    exact fits
  · exact le_max_left _ _

theorem count_of_lt (positive : 0 < size) (more : size < total) :
    count size total = count size (total - size) + 1 := by
  have atMost : ∀ bound, count size total ≤ bound + 1 ↔ count size (total - size) ≤ bound := by
    intro bound
    rw [count_le_iff positive (Nat.succ_pos bound), Nat.mul_succ]
    cases bound with
    | zero =>
      have some_left : 1 ≤ count size (total - size) := le_max_left _ _
      apply iff_of_false <;> omega
    | succ bound =>
      rw [count_le_iff positive (Nat.succ_pos bound)]
      exact Nat.sub_le_iff_le_add.symm
  have some_left : 1 ≤ count size total := le_max_left _ _
  apply Nat.le_antisymm
  · exact (atMost _).mpr (Nat.le_refl _)
  · have least := (atMost (count size total - 1)).mp (by omega)
    omega

theorem ceilDiv_le_iff_count_le {bound : Nat} (some_piece : 0 < bound) :
    total ⌈/⌉ size ≤ bound ↔ count size total ≤ bound := by
  unfold count
  rw [max_le_iff]
  exact (and_iff_right some_piece).symm

end Pieces
