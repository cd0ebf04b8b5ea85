import MoshClient.Session.EventLog

namespace MoshModel

structure HostStreamState where
  log : EventLog
  echoAck : UInt64
deriving DecidableEq

namespace HostStreamState

def new : HostStreamState := { log := EventLog.new, echoAck := 0 }

/-- One turn of the loop of `apply_string`, with the count of nodes allocated before it. -/
def applyInstruction (addresses : Nat → Address) (turn : HostStreamState × Nat) :
    HostInstruction → HostStreamState × Nat
  | .hostBytes bytes =>
    if bytes.isEmpty then turn
    else ({ turn.1 with log := turn.1.log.push (addresses turn.2) (.bytes bytes) }, turn.2 + 1)
  | .resize width height =>
    ({ turn.1 with log := turn.1.log.push (addresses turn.2) (.resize width height) }, turn.2 + 1)
  | .echoAck num => ({ turn.1 with echoAck := max turn.1.echoAck num }, turn.2)

/-- `addresses` are what the allocator answers with during the call, in order. -/
def applyString (addresses : Nat → Address) (state : HostStreamState) (diff : Bytes) :
    Except WireError HostStreamState :=
  (HostMessage.decode diff).map fun message =>
    (message.instructions.foldl (applyInstruction addresses) (state, 0)).1

def pushedEvent : HostInstruction → Option HostEvent
  | .hostBytes bytes => if bytes.isEmpty then none else some (.bytes bytes)
  | .resize width height => some (.resize width height)
  | .echoAck _ => none

def pushedEvents (diff : Bytes) : List HostEvent :=
  match HostMessage.decode diff with
  | .ok message => message.instructions.filterMap pushedEvent
  | .error _ => []

def placed (addresses : Nat → Address) (events : List HostEvent) (pushed : Nat) :
    List (Address × HostEvent) :=
  (events.zipIdx pushed).map fun entry => (addresses entry.2, entry.1)

def allocated (addresses : Nat → Address) (diff : Bytes) : List (Address × HostEvent) :=
  placed addresses (pushedEvents diff) 0

theorem foldl_applyInstruction (addresses : Nat → Address) (instructions : List HostInstruction)
    (turn : HostStreamState × Nat) :
    (instructions.foldl (applyInstruction addresses) turn).1.log.node =
      turn.1.log.node.extend (placed addresses (instructions.filterMap pushedEvent) turn.2) := by
  induction instructions generalizing turn with
  | nil => rfl
  | cons instruction instructions ih =>
    rw [List.foldl_cons, ih, List.filterMap_cons]
    cases instruction with
    | hostBytes bytes =>
      by_cases empty : bytes.isEmpty = true
      · rw [applyInstruction, if_pos empty, pushedEvent, if_pos empty]
      · rw [applyInstruction, if_neg empty, pushedEvent, if_neg empty]
        rfl
    | resize width height => rfl
    | echoAck num => rfl

theorem applyString_node {addresses : Nat → Address} {state after : HostStreamState} {diff : Bytes}
    (applied : applyString addresses state diff = .ok after) :
    after.log.node = state.log.node.extend (allocated addresses diff) := by
  unfold applyString at applied
  cases decoded : HostMessage.decode diff with
  | error e =>
    rw [decoded] at applied
    cases applied
  | ok message =>
    rw [decoded] at applied
    cases applied
    rw [foldl_applyInstruction, allocated, pushedEvents, decoded]

end HostStreamState

end MoshModel
