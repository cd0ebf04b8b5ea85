import Mathlib.Data.List.Basic

namespace Transition

/-- A deterministic machine whose environment picks the next action among the allowed ones. -/
structure Machine (State Action : Type*) where
  init : State
  allowed : State → Action → Prop
  next : State → Action → State

namespace Machine

variable {State Action Target Label : Type*}

inductive Run (machine : Machine State Action) : List Action → State → Prop
  | start : Run machine [] machine.init
  | step {trace : List Action} {state : State} {action : Action} :
      Run machine trace state → machine.allowed state action →
        Run machine (trace ++ [action]) (machine.next state action)

def Reachable (machine : Machine State Action) (state : State) : Prop :=
  ∃ trace, machine.Run trace state

theorem Reachable.start (machine : Machine State Action) : machine.Reachable machine.init :=
  ⟨[], .start⟩

theorem Reachable.step {machine : Machine State Action} {state : State} {action : Action}
    (reached : machine.Reachable state) (allowed : machine.allowed state action) :
    machine.Reachable (machine.next state action) := by
  obtain ⟨trace, run⟩ := reached
  exact ⟨trace ++ [action], run.step allowed⟩

/-- What holds at the start and survives every allowed step holds in every reachable state. -/
theorem Reachable.invariant {machine : Machine State Action} {motive : State → Prop}
    (base : motive machine.init)
    (preserved : ∀ state action, machine.Reachable state → motive state →
      machine.allowed state action → motive (machine.next state action))
    {state : State} (reached : machine.Reachable state) : motive state := by
  obtain ⟨trace, run⟩ := reached
  induction run with
  | start => exact base
  | step run allowed ih => exact preserved _ _ ⟨_, run⟩ ih allowed

theorem Run.invariant {machine : Machine State Action} {motive : List Action → State → Prop}
    (base : motive [] machine.init)
    (preserved : ∀ trace state action, machine.Run trace state → motive trace state →
      machine.allowed state action → motive (trace ++ [action]) (machine.next state action))
    {trace : List Action} {state : State} (run : machine.Run trace state) :
    motive trace state := by
  induction run with
  | start => exact base
  | step run allowed ih => exact preserved _ _ _ run ih allowed

def Follows (machine : Machine State Action) : State → List Action → Prop
  | _, [] => True
  | state, action :: actions =>
    machine.allowed state action ∧ Follows machine (machine.next state action) actions

instance Follows.decide (machine : Machine State Action)
    [allows : ∀ state action, Decidable (machine.allowed state action)] (state : State)
    (actions : List Action) : Decidable (machine.Follows state actions) :=
  match actions with
  | [] => inferInstanceAs (Decidable True)
  | action :: actions =>
    have := Follows.decide machine (machine.next state action) actions
    inferInstanceAs (Decidable (_ ∧ _))

theorem Run.follow {machine : Machine State Action} {trace actions : List Action} {state : State}
    (run : machine.Run trace state) (follows : machine.Follows state actions) :
    machine.Run (trace ++ actions) (actions.foldl machine.next state) := by
  induction actions generalizing trace state with
  | nil => simpa using run
  | cons action actions ih =>
    have later := ih (run.step follows.1) follows.2
    rwa [List.append_assoc, List.singleton_append] at later

end Machine

end Transition
