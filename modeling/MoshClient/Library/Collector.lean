import MoshClient.Library.Transition
import Mathlib.Data.Set.Basic

namespace Collector

open Transition

structure Entry (Id Piece : Type*) where
  id : Id
  piece : Piece
  completed : Bool

structure Collected (Id Piece : Type*) where
  current : Id
  held : Set Piece

variable {Id Piece : Type*}

/-- What is held once a piece of a whole has arrived: an arrival for another whole clears the rest. -/
def Collected.accepted (state : Collected Id Piece) (id : Id) (piece : Piece) : Set Piece :=
  {other | other = piece ∨ (state.current = id ∧ other ∈ state.held)}

/-- An arrival completes its whole exactly when every part is then held, and the parts are let go. -/
def machine (part : Id → Set Piece) (start : Id) : Machine (Collected Id Piece) (Entry Id Piece) where
  init := { current := start, held := ∅ }
  allowed state entry :=
    entry.completed = true ↔ part entry.id ⊆ state.accepted entry.id entry.piece
  next state entry :=
    { current := entry.id,
      held := {other | entry.completed = false ∧ other ∈ state.accepted entry.id entry.piece} }

variable [DecidableEq Id]

def window (id : Id) (history : List (Entry Id Piece)) : List Piece :=
  (history.reverse.takeWhile fun entry => entry.id = id ∧ entry.completed = false).map Entry.piece

theorem window_append (id : Id) (history : List (Entry Id Piece)) (entry : Entry Id Piece) :
    window id (history ++ [entry]) =
      if entry.id = id ∧ entry.completed = false then entry.piece :: window id history else [] := by
  unfold window
  rw [List.reverse_append, List.reverse_singleton, List.singleton_append, List.takeWhile_cons]
  split <;> simp_all

theorem held_iff_window {part : Id → Set Piece} {start : Id} {history : List (Entry Id Piece)}
    {state : Collected Id Piece} (run : (machine part start).Run history state) (id : Id)
    (other : Piece) : (state.current = id ∧ other ∈ state.held) ↔ other ∈ window id history := by
  revert id other
  refine run.invariant (motive := fun history state => ∀ id other,
    (state.current = id ∧ other ∈ state.held) ↔ other ∈ window id history) ?_ ?_
  · intro id other
    simp [machine, window]
  · intro history state entry _ ih _ id other
    have before := ih entry.id other
    rw [window_append]
    by_cases same : entry.id = id
    · subst same
      cases completed : entry.completed
      · simp [machine, Collected.accepted, before, completed]
      · simp [machine, completed]
    · simp [machine, same]

theorem accepted_eq_window {part : Id → Set Piece} {start : Id} {history : List (Entry Id Piece)}
    {state : Collected Id Piece} (run : (machine part start).Run history state) (id : Id)
    (piece other : Piece) :
    other ∈ state.accepted id piece ↔ other = piece ∨ other ∈ window id history := by
  rw [← held_iff_window run id other]
  rfl

end Collector
