import Mathlib.Data.List.Induction
import MoshClient.Library.History

namespace Watermark

open History

variable {Entry Key : Type*}

structure Queue (Entry : Type*) where
  entries : List Entry
  index : Nat

variable [DecidableEq Key]

def Queue.holds (key : Entry → Key) (queue : Queue Entry) (mark : Key) : Bool :=
  queue.entries.any fun entry => key entry = mark

variable {key : Entry → Key} {queue : Queue Entry} {earlier later mark : Key}

theorem holds_iff : queue.holds key mark = true ↔ ∃ entry ∈ queue.entries, key entry = mark := by
  simp [Queue.holds]

variable [LE Key] [DecidableLE Key]

/-- A held mark keeps the entries from it on, and the index within them. -/
def advance (key : Entry → Key) (queue : Queue Entry) (mark : Key) : Queue Entry :=
  if queue.holds key mark then
    let kept := queue.entries.filter fun entry => mark ≤ key entry
    { entries := kept, index := min queue.index (kept.length - 1) }
  else queue

theorem advance_of_held (held : queue.holds key mark = true) :
    advance key queue mark =
      { entries := queue.entries.filter fun entry => mark ≤ key entry,
        index := min queue.index ((queue.entries.filter fun entry => mark ≤ key entry).length - 1) } :=
  if_pos held

theorem advance_of_unheld (unheld : queue.holds key mark ≠ true) : advance key queue mark = queue :=
  if_neg unheld

theorem advance_holds (held : queue.holds key earlier = true) :
    (advance key queue earlier).holds key later = true ↔ queue.holds key later = true ∧ earlier ≤ later := by
  rw [advance_of_held held, holds_iff, holds_iff]
  constructor
  · rintro ⟨entry, member, rfl⟩
    obtain ⟨old, past⟩ := List.mem_filter.mp member
    exact ⟨⟨entry, old, rfl⟩, of_decide_eq_true past⟩
  · rintro ⟨⟨entry, old, rfl⟩, past⟩
    exact ⟨entry, List.mem_filter.mpr ⟨old, decide_eq_true past⟩, rfl⟩

variable [Std.IsLinearOrder Key]

/-- The later of two held marks decides, whichever comes first. -/
theorem advance_advance (heldEarlier : queue.holds key earlier = true) (heldLater : queue.holds key later = true) :
    advance key (advance key queue earlier) later =
      if earlier ≤ later then advance key queue later else advance key queue earlier := by
  split
  · rename_i ordered
    have twice : ∀ entry, (decide (later ≤ key entry) && decide (earlier ≤ key entry)) =
        decide (later ≤ key entry) := by
      intro entry
      by_cases past : later ≤ key entry
      · simp [past, Std.le_trans ordered past]
      · simp [past]
    have stays := (advance_holds heldEarlier).mpr ⟨heldLater, ordered⟩
    rw [advance_of_held stays, advance_of_held heldLater, advance_of_held heldEarlier]
    simp only [List.filter_filter, twice, Queue.mk.injEq, true_and]
    have fewer : (queue.entries.filter fun entry => later ≤ key entry).length ≤
        (queue.entries.filter fun entry => earlier ≤ key entry).length := by
      apply List.Sublist.length_le
      apply List.monotone_filter_right
      intro entry past
      exact decide_eq_true (Std.le_trans ordered (of_decide_eq_true past))
    omega
  · rename_i unordered
    apply advance_of_unheld
    intro stays
    exact unordered ((advance_holds heldEarlier).mp stays).2

/-- How a list of marks leaves a queue: at rest, or advanced to the greatest mark that it held. -/
inductive Advanced (key : Entry → Key) (queue : Queue Entry) (marks : List Key) : Queue Entry → Prop
  | rest (none : ∀ mark ∈ marks, queue.holds key mark ≠ true) : Advanced key queue marks queue
  | moved (top : Key) (given : top ∈ marks) (held : queue.holds key top = true)
      (greatest : ∀ mark ∈ marks, queue.holds key mark = true → mark ≤ top) :
      Advanced key queue marks (advance key queue top)

omit [DecidableLE Key] [Std.IsLinearOrder Key] in
theorem greatest_snoc {marks : List Key} {top : Key}
    (before : ∀ mark ∈ marks, queue.holds key mark = true → mark ≤ top)
    (last : queue.holds key later = true → later ≤ top) :
    ∀ mark ∈ marks ++ [later], queue.holds key mark = true → mark ≤ top := by
  intro mark member known
  rcases mem_snoc.mp member with old | rfl
  · exact before mark old known
  · exact last known

theorem Advanced.next {marks : List Key} {reached : Queue Entry} (advanced : Advanced key queue marks reached)
    (mark : Key) : Advanced key queue (marks ++ [mark]) (advance key reached mark) := by
  cases advanced with
  | rest none =>
    by_cases held : queue.holds key mark = true
    · apply Advanced.moved mark (by simp) held
      exact greatest_snoc (fun other old known => absurd known (none other old)) fun _ => Std.le_refl _
    · rw [advance_of_unheld held]
      apply Advanced.rest
      intro other member
      rcases mem_snoc.mp member with old | rfl
      · exact none other old
      · exact held
  | moved top given topHeld greatest =>
    by_cases held : queue.holds key mark = true
    · rw [advance_advance topHeld held]
      split
      · rename_i ordered
        apply Advanced.moved mark (by simp) held
        exact greatest_snoc (fun other old known => Std.le_trans (greatest other old known) ordered)
          fun _ => Std.le_refl _
      · rename_i unordered
        apply Advanced.moved top (List.mem_append_left _ given) topHeld
        exact greatest_snoc greatest fun _ => Std.le_of_not_ge unordered
    · rw [advance_of_unheld fun later => held ((advance_holds topHeld).mp later).1]
      apply Advanced.moved top (List.mem_append_left _ given) topHeld
      exact greatest_snoc greatest fun known => absurd known held

theorem foldl_advance (key : Entry → Key) (queue : Queue Entry) (marks : List Key) :
    Advanced key queue marks (marks.foldl (advance key) queue) := by
  induction marks using List.reverseRecOn with
  | nil => exact .rest (by simp)
  | append_singleton marks mark ih =>
    rw [List.foldl_append]
    exact ih.next mark

end Watermark
