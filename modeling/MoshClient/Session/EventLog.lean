import MoshClient.Library.Chain
import MoshClient.Wire.Messages

namespace MoshModel

inductive HostEvent where
  | bytes (bytes : Bytes)
  | resize (width height : Int32)
deriving DecidableEq

abbrev Address := Nat

/-- An `Option<Arc<LogNode>>`: the node behind a pointer is never written, so the pointer goes with
    all it reaches. -/
abbrev LogNode := Chain Address HostEvent

structure EventLog where
  node : LogNode
  len : Nat
  counted : node.items.length = len
deriving DecidableEq

namespace EventLog

def new : EventLog := { node := .nil, len := 0, counted := rfl }

def isEmpty (log : EventLog) : Bool := log.len = 0

def push (log : EventLog) (address : Address) (event : HostEvent) : EventLog :=
  { node := .cell address event log.node, len := log.len + 1
    counted := congrArg (· + 1) log.counted }

def iter (log : EventLog) : List HostEvent := log.node.items.reverse

/-- The first loop of `suffix_over`. -/
def climb : Nat → LogNode → Option LogNode
  | 0, cursor => some cursor
  | _ + 1, .nil => none
  | back + 1, .cell _ _ parent => climb back parent

def sharesTrunk : LogNode → LogNode → Bool
  | .nil, .nil => true
  | .cell one _ _, .cell other _ _ => one = other
  | _, _ => false

/-- The second loop of `suffix_over`, newest event first. -/
def passed : Nat → LogNode → Option (List HostEvent)
  | 0, _ => some []
  | _ + 1, .nil => none
  | back + 1, .cell _ event parent => (passed back parent).map (event :: ·)

def suffixOver (log base : EventLog) : Option (List HostEvent) :=
  if log.len < base.len then none
  else
    match climb (log.len - base.len) log.node with
    | none => none
    | some cursor =>
      if sharesTrunk base.node cursor then (passed (log.len - base.len) log.node).map List.reverse else none

theorem ext_node {left right : EventLog} (same : left.node = right.node) : left = right := by
  obtain ⟨node, len, rfl⟩ := left
  obtain ⟨_, _, rfl⟩ := right
  subst same
  rfl

theorem iter_length (log : EventLog) : log.iter.length = log.len := by
  rw [iter, List.length_reverse, log.counted]

theorem climb_eq {back : Nat} {cursor : LogNode} (deep : back ≤ cursor.items.length) :
    climb back cursor = some (Chain.above back cursor) := by
  induction back generalizing cursor with
  | zero => rfl
  | succ back ih =>
    cases cursor with
    | nil => cases deep
    | cell address event parent => exact ih (Nat.le_of_succ_le_succ deep)

theorem passed_eq {back : Nat} {cursor : LogNode} (deep : back ≤ cursor.items.length) :
    passed back cursor = some (cursor.items.take back) := by
  induction back generalizing cursor with
  | zero => rfl
  | succ back ih =>
    cases cursor with
    | nil => cases deep
    | cell address event parent =>
      rw [passed, ih (Nat.le_of_succ_le_succ deep)]
      rfl

theorem sharesTrunk_iff (one other : LogNode) :
    sharesTrunk one other = true ↔ one.address? = other.address? := by
  cases one <;> cases other <;> simp [sharesTrunk, Chain.address?]

/-- The fallible walks of `suffix_over` never fail: the counts are right. -/
theorem suffixOver_eq_some_iff (log base : EventLog) (suffix : List HostEvent) :
    log.suffixOver base = some suffix ↔
      base.len ≤ log.len ∧ base.node.address? = (Chain.above (log.len - base.len) log.node).address? ∧
        (log.node.items.take (log.len - base.len)).reverse = suffix := by
  have deep : log.len - base.len ≤ log.node.items.length := by
    rw [log.counted]
    exact Nat.sub_le _ _
  rw [suffixOver, climb_eq deep, passed_eq deep]
  dsimp only
  rw [← sharesTrunk_iff]
  by_cases shorter : log.len < base.len
  · rw [if_pos shorter]
    simp [Nat.not_le.mpr shorter]
  · rw [if_neg shorter]
    by_cases shared : sharesTrunk base.node (Chain.above (log.len - base.len) log.node) = true
    · simp [shared, Nat.not_lt.mp shorter]
    · simp [shared]

theorem suffixOver_ancestor {roots : List LogNode} (coherent : Chain.Coherent roots) {log base : EventLog}
    (logMember : log.node ∈ roots) (baseMember : base.node ∈ roots) {suffix : List HostEvent}
    (found : log.suffixOver base = some suffix) :
    base.node = Chain.above (log.len - base.len) log.node := by
  obtain ⟨-, same, -⟩ := (suffixOver_eq_some_iff log base suffix).mp found
  exact coherent.eq_of_address baseMember logMember _ same

theorem suffixOver_iter {roots : List LogNode} (coherent : Chain.Coherent roots) {log base : EventLog}
    (logMember : log.node ∈ roots) (baseMember : base.node ∈ roots) {suffix : List HostEvent}
    (found : log.suffixOver base = some suffix) : log.iter = base.iter ++ suffix := by
  have ancestor := suffixOver_ancestor coherent logMember baseMember found
  obtain ⟨-, -, rfl⟩ := (suffixOver_eq_some_iff log base suffix).mp found
  rw [iter, iter, ancestor, Chain.items_above, ← List.reverse_append, List.take_append_drop]

theorem suffixOver_nil {roots : List LogNode} (coherent : Chain.Coherent roots) {log base : EventLog}
    (logMember : log.node ∈ roots) (baseMember : base.node ∈ roots)
    (found : log.suffixOver base = some []) : base = log := by
  have events := suffixOver_iter coherent logMember baseMember found
  have lengths := congrArg List.length events
  rw [List.append_nil, iter_length, iter_length] at lengths
  have ancestor := suffixOver_ancestor coherent logMember baseMember found
  rw [lengths, Nat.sub_self] at ancestor
  exact ext_node ancestor

end EventLog

end MoshModel
