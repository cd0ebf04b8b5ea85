import MoshClient.Library.Transition

namespace Transition.Machine

variable {State Action Target Label : Type*}

/-- Two machines run side by side, the second from a state on the way, where every step of the first is
matched by steps of the second. -/
theorem Run.simulate {low : Machine State Action} {high : Machine Target Label}
    (related : List Action → State → List Label → Target → Prop) {first : List Label} {start : Target}
    (started : high.Run first start) (base : related [] low.init first start)
    (matched : ∀ trace state labels target action, low.Run trace state → high.Run labels target →
      related trace state labels target → low.allowed state action →
        ∃ more, high.Follows target more ∧
          related (trace ++ [action]) (low.next state action) (labels ++ more) (more.foldl high.next target))
    {trace : List Action} {state : State} (run : low.Run trace state) :
    ∃ labels target, high.Run labels target ∧ related trace state labels target := by
  induction run with
  | start => exact ⟨first, start, started, base⟩
  | step before allowed ih =>
    obtain ⟨labels, target, above, held⟩ := ih
    obtain ⟨more, follows, after⟩ := matched _ _ labels target _ before above held allowed
    exact ⟨labels ++ more, _, above.follow follows, after⟩

def guarded (machine : Machine State Action) (guard : State → Action → Prop) : Machine State Action :=
  { machine with allowed := fun state action => machine.allowed state action ∧ guard state action }

instance (machine : Machine State Action) (guard : State → Action → Prop) (state : State) (action : Action)
    [Decidable (machine.allowed state action)] [Decidable (guard state action)] :
    Decidable ((machine.guarded guard).allowed state action) :=
  inferInstanceAs (Decidable (machine.allowed state action ∧ guard state action))

theorem Run.unguard {machine : Machine State Action} {guard : State → Action → Prop} {trace : List Action}
    {state : State} (run : (machine.guarded guard).Run trace state) : machine.Run trace state := by
  induction run with
  | start => exact .start
  | step before allowed ran => exact ran.step allowed.1

theorem Run.state_eq {machine : Machine State Action} {trace : List Action} {state : State}
    (run : machine.Run trace state) : state = trace.foldl machine.next machine.init := by
  induction run with
  | start => rfl
  | step before allowed ih => rw [List.foldl_append, ← ih, List.foldl_cons, List.foldl_nil]

variable {Output : Type*}

/-- What the steps of a run give out, in order. -/
def emitted (machine : Machine State Action) (output : State → Action → List Output) :
    State → List Action → List Output
  | _, [] => []
  | state, action :: actions => output state action ++ emitted machine output (machine.next state action) actions

variable {machine : Machine State Action} {output : State → Action → List Output}

theorem emitted_append (state : State) (first second : List Action) :
    machine.emitted output state (first ++ second) =
      machine.emitted output state first ++ machine.emitted output (first.foldl machine.next state) second := by
  induction first generalizing state with
  | nil => rfl
  | cons action first ih => rw [List.cons_append, emitted, emitted, ih, List.append_assoc, List.foldl_cons]

theorem Run.emitted_snoc {trace : List Action} {state : State} (run : machine.Run trace state) (action : Action) :
    machine.emitted output machine.init (trace ++ [action]) =
      machine.emitted output machine.init trace ++ output state action := by
  rw [emitted_append, ← run.state_eq, emitted, emitted, List.append_nil]

end Transition.Machine
