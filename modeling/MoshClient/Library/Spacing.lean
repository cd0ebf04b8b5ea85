import Mathlib.Data.List.Basic

namespace Spacing

def Spaced (gap : Nat) (times : List Nat) : Prop := times.Pairwise fun earlier later => earlier + gap ≤ later

theorem gaps_le {gap first bound : Nat} {times : List Nat} (spaced : Spaced gap (first :: times))
    (within : ∀ time ∈ first :: times, time ≤ bound) : first + times.length * gap ≤ bound := by
  induction times generalizing first with
  | nil => simpa using within first (List.mem_cons_self ..)
  | cons second times ih =>
    obtain ⟨after, rest⟩ := List.pairwise_cons.mp spaced
    have next := after second (List.mem_cons_self ..)
    have later := ih rest fun time member => within time (List.mem_cons_of_mem _ member)
    rw [List.length_cons, Nat.succ_mul]
    omega

theorem length_le {gap first bound : Nat} {times : List Nat} (positive : 0 < gap)
    (spaced : Spaced gap (first :: times)) (within : ∀ time ∈ first :: times, time ≤ bound) :
    times.length ≤ (bound - first) / gap := by
  rw [Nat.le_div_iff_mul_le positive]
  have gaps := gaps_le spaced within
  omega

end Spacing
