import Mathlib.Data.List.Basic

namespace HighWater

variable {State View Action Mark : Type*} [LT Mark] [DecidableLT Mark]

def exceeds (seen : List Mark) (mark : Mark) : Bool := seen.all fun earlier => earlier < mark

/-- The actions without a mark, and those whose mark is above all the earlier ones. -/
def records (mark : Action → Option Mark) : List Mark → List Action → List Action
  | _, [] => []
  | seen, action :: actions =>
    match mark action with
    | none => action :: records mark seen actions
    | some new =>
      if exceeds seen new then action :: records mark (seen ++ [new]) actions
      else records mark (seen ++ [new]) actions

/-- A view that its own steps carry along, with an invariant over the marks seen so far. -/
structure Gated (mark : Action → Option Mark) (step : State → Action → State) (view : State → View)
    (move : View → Action → View) (invariant : List Mark → View → Prop) : Prop where
  commutes : ∀ state action, view (step state action) = move (view state) action
  unmarked : ∀ seen seenView action, invariant seen seenView → mark action = none →
    invariant seen (move seenView action)
  above : ∀ seen seenView action new, invariant seen seenView → mark action = some new →
    exceeds seen new = true → invariant (seen ++ [new]) (move seenView action)
  stale : ∀ seen seenView action new, invariant seen seenView → mark action = some new →
    exceeds seen new = false → move seenView action = seenView ∧ invariant (seen ++ [new]) seenView

variable {mark : Action → Option Mark} {step : State → Action → State} {view : State → View}
  {move : View → Action → View} {invariant : List Mark → View → Prop}

theorem Gated.foldl_records (gated : Gated mark step view move invariant) (actions : List Action) :
    ∀ (seen : List Mark) (left right : State), invariant seen (view left) → view left = view right →
      view (actions.foldl step left) = view ((records mark seen actions).foldl step right) := by
  induction actions with
  | nil => exact fun _ _ _ _ same => same
  | cons action actions ih =>
    intro seen left right holds same
    have both : view (step left action) = view (step right action) := by
      rw [gated.commutes, gated.commutes, same]
    rw [List.foldl_cons, records]
    cases marked : mark action with
    | none =>
      apply ih seen
      · rw [gated.commutes]
        exact gated.unmarked seen _ action holds marked
      · exact both
    | some new =>
      dsimp only
      cases above : exceeds seen new with
      | true =>
        rw [if_pos rfl]
        apply ih (seen ++ [new])
        · rw [gated.commutes]
          exact gated.above seen _ action new holds marked above
        · exact both
      | false =>
        obtain ⟨still, later⟩ := gated.stale seen _ action new holds marked above
        rw [if_neg Bool.false_ne_true]
        apply ih (seen ++ [new])
        · rw [gated.commutes, still]
          exact later
        · rw [gated.commutes, still, same]

theorem Gated.foldl_invariant (gated : Gated mark step view move invariant) (actions : List Action) :
    ∀ (seen : List Mark) (state : State), invariant seen (view state) →
      invariant (seen ++ actions.filterMap mark) (view (actions.foldl step state)) := by
  induction actions with
  | nil =>
    intro seen state holds
    rwa [List.filterMap_nil, List.append_nil]
  | cons action actions ih =>
    intro seen state holds
    rw [List.foldl_cons]
    cases marked : mark action with
    | none =>
      rw [List.filterMap_cons_none marked]
      apply ih
      rw [gated.commutes]
      exact gated.unmarked seen _ action holds marked
    | some new =>
      rw [List.filterMap_cons_some marked, List.append_cons]
      apply ih
      rw [gated.commutes]
      cases above : exceeds seen new with
      | true => exact gated.above seen _ action new holds marked above
      | false =>
        obtain ⟨still, later⟩ := gated.stale seen _ action new holds marked above
        rw [still]
        exact later

end HighWater
