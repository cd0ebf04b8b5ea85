import MoshClient.Library.Counted
import MoshClient.Library.Transition
import MoshClient.Session.EventLog

namespace MoshModel

open Transition

/-- The logs that are alive, with the strong count of the node at each address: an address that counts
none is not allocated. -/
structure Forest where
  logs : List EventLog
  counts : Address → Nat

inductive LogAction where
  | new
  | clone (index : Nat)
  | push (index : Nat) (address : Address) (event : HostEvent)
  | drop (index : Nat)

namespace Forest

/-- `Arc::new` returns the address of no allocation. -/
def allowed (forest : Forest) : LogAction → Prop
  | .new => True
  | .clone index => index < forest.logs.length
  | .push index address _ => index < forest.logs.length ∧ forest.counts address = 0
  | .drop index => index < forest.logs.length

instance (forest : Forest) (action : LogAction) : Decidable (forest.allowed action) := by
  unfold allowed
  cases action <;> infer_instance

def next (forest : Forest) : LogAction → Forest
  | .new => { forest with logs := .new :: forest.logs }
  | .clone index =>
    match forest.logs[index]? with
    | none => forest
    | some log => { logs := log :: forest.logs, counts := Chain.retain forest.counts log.node }
  | .push index address event =>
    match forest.logs[index]? with
    | none => forest
    | some log =>
      -- The new node holds a clone of the pointer that its log gives up for it.
      { logs := forest.logs.set index (log.push address event)
        counts := Chain.release (Function.update (Chain.retain forest.counts log.node) address 1) log.node }
  | .drop index =>
    match forest.logs[index]? with
    | none => forest
    | some log => { logs := forest.logs.eraseIdx index, counts := Chain.release forest.counts log.node }

end Forest

def forestMachine : Machine Forest LogAction where
  init := { logs := [], counts := fun _ => 0 }
  allowed := Forest.allowed
  next := Forest.next

/-- `log` is a clone of `base` onto which the events were pushed. -/
inductive EventLog.Descends (base : EventLog) : List HostEvent → EventLog → Prop
  | clone : Descends base [] base
  | push {pushed : List HostEvent} {log : EventLog} (address : Address) (event : HostEvent) :
      Descends base pushed log → Descends base (pushed ++ [event]) (log.push address event)

theorem EventLog.Descends.walk {base log : EventLog} {pushed : List HostEvent} (descends : base.Descends pushed log) :
    log.len = base.len + pushed.length ∧ Chain.above pushed.length log.node = base.node ∧
      log.node.items.take pushed.length = pushed.reverse := by
  induction descends with
  | clone => exact ⟨rfl, rfl, rfl⟩
  | push address event _ ih =>
    obtain ⟨longer, above, front⟩ := ih
    rw [List.length_append, List.length_singleton, List.reverse_append]
    refine ⟨?_, above, ?_⟩
    · rw [← Nat.add_assoc, ← longer]
      rfl
    · exact congrArg (event :: ·) front

theorem EventLog.Descends.suffixOver {base log : EventLog} {pushed : List HostEvent}
    (descends : base.Descends pushed log) : log.suffixOver base = some pushed := by
  obtain ⟨longer, above, front⟩ := descends.walk
  have back : log.len - base.len = pushed.length := by omega
  rw [suffixOver_eq_some_iff, back, above, front, List.reverse_reverse]
  exact ⟨by omega, rfl, rfl⟩

theorem EventLog.descends_of_above {base : EventLog} {steps : Nat} {log : EventLog}
    (deep : steps ≤ log.node.items.length) (above : base.node = Chain.above steps log.node) :
    base.Descends (log.node.items.take steps).reverse log := by
  induction steps generalizing log with
  | zero =>
    rw [ext_node above]
    exact .clone
  | succ steps ih =>
    obtain ⟨node, len, counted⟩ := log
    cases node with
    | nil => cases deep
    | cell address event parent =>
      let before : EventLog := { node := parent, len := parent.items.length, counted := rfl }
      have whole : { node := .cell address event parent, len := len, counted := counted } = before.push address event :=
        ext_node rfl
      have earlier : base.Descends (before.node.items.take steps).reverse before :=
        ih (Nat.le_of_succ_le_succ deep) above
      have pushed := earlier.push address event
      rw [← List.reverse_cons, ← whole] at pushed
      exact pushed

namespace Forest

def nodes (forest : Forest) : List LogNode := forest.logs.map EventLog.node

def Sound (forest : Forest) : Prop := ∃ cells, Chain.Counted forest.counts cells forest.nodes

theorem nodes_perm {forest : Forest} {index : Nat} {log : EventLog} (found : forest.logs[index]? = some log) :
    forest.nodes.Perm (log.node :: (forest.logs.eraseIdx index).map EventLog.node) := by
  obtain ⟨inside, rfl⟩ := List.getElem?_eq_some_iff.mp found
  exact ((List.getElem_cons_eraseIdx_perm inside).map EventLog.node).symm

theorem Sound.next {forest : Forest} (sound : forest.Sound) (action : LogAction) (allowed : forest.allowed action) :
    (forest.next action).Sound := by
  obtain ⟨cells, counted⟩ := sound
  cases action with
  | new => exact ⟨cells, counted.nil⟩
  | clone index =>
    unfold Forest.next
    dsimp only
    split
    · exact ⟨cells, counted⟩
    · next log found =>
      have member := (nodes_perm found).mem_iff.mpr (List.mem_cons_self ..)
      exact ⟨cells, counted.retain member⟩
  | push index address event =>
    unfold Forest.next
    dsimp only
    split
    · exact ⟨cells, counted⟩
    · next log found =>
      obtain ⟨inside, free⟩ := allowed
      have first := counted.perm (nodes_perm found)
      have apart := first.fresh free (List.mem_cons_self ..) .here
      have unused : Chain.retain forest.counts log.node address = 0 := by
        rw [Chain.retain_other apart]
        exact free
      have added := (first.retain (List.mem_cons_self ..)).allocate unused event
      obtain ⟨fewer, left⟩ := (added.perm (.swap _ _ _)).release
      have replaced := (List.set_perm_cons_eraseIdx inside (log.push address event)).map EventLog.node
      exact ⟨fewer, left.perm replaced.symm⟩
  | drop index =>
    unfold Forest.next
    dsimp only
    split
    · exact ⟨cells, counted⟩
    · next log found => exact (counted.perm (nodes_perm found)).release

theorem sound_of_reachable {forest : Forest} (reached : forestMachine.Reachable forest) : forest.Sound :=
  reached.invariant (motive := Sound) ⟨[], .start⟩ fun _ action _ sound allowed => sound.next action allowed

theorem mem_nodes {forest : Forest} {log : EventLog} (member : log ∈ forest.logs) : log.node ∈ forest.nodes :=
  List.mem_map_of_mem member

end Forest

/-- `suffix_over` finds the events a log has beyond another if and only if it descends from it, and a push puts its
node where no live node is. -/
theorem forest_suffixes (forest : Forest) (reached : forestMachine.Reachable forest) :
    (∀ log ∈ forest.logs, log.len = log.iter.length) ∧
    (∀ log ∈ forest.logs, ∀ base ∈ forest.logs, ∀ suffix,
      log.suffixOver base = some suffix → base.iter ++ suffix = log.iter) ∧
    (∀ log ∈ forest.logs, ∀ base ∈ forest.logs, ∀ pushed,
      log.suffixOver base = some pushed ↔ base.Descends pushed log) ∧
    ∀ index address event, forest.allowed (.push index address event) →
      ∀ log ∈ forest.logs, ∀ node : LogNode, node.Within log.node → node.address? ≠ some address := by
  obtain ⟨cells, counted⟩ := Forest.sound_of_reachable reached
  refine ⟨fun log _ => log.iter_length.symm, ?_, ?_, ?_⟩
  · intro log member base baseMember suffix found
    exact (EventLog.suffixOver_iter counted.coherent (Forest.mem_nodes member) (Forest.mem_nodes baseMember) found).symm
  · intro log member base baseMember pushed
    refine ⟨fun found => ?_, EventLog.Descends.suffixOver⟩
    have above := EventLog.suffixOver_ancestor counted.coherent (Forest.mem_nodes member) (Forest.mem_nodes baseMember) found
    obtain ⟨-, -, rfl⟩ := (EventLog.suffixOver_eq_some_iff log base pushed).mp found
    apply EventLog.descends_of_above ?_ above
    rw [log.counted]
    exact Nat.sub_le _ _
  · rintro index address event ⟨-, free⟩ log member node within
    exact counted.fresh free (Forest.mem_nodes member) within

def trunkLog : EventLog := EventLog.new.push 1 (.bytes [97])

def branchedForest : Forest :=
  [.new, .push 0 1 (.bytes [97]), .clone 0, .clone 0, .push 0 2 (.bytes [98]), .push 1 3 (.bytes [99])].foldl
    forestMachine.next forestMachine.init

instance (forest : Forest) (action : LogAction) : Decidable (forestMachine.allowed forest action) :=
  inferInstanceAs (Decidable (forest.allowed action))

theorem branchedForest_reachable : forestMachine.Reachable branchedForest :=
  ⟨_, Machine.Run.start.follow (by decide)⟩

theorem forest_suffixes_branched :
    trunkLog.Descends [.bytes [98]] (trunkLog.push 2 (.bytes [98])) ∧
      ¬(trunkLog.push 3 (.bytes [99])).Descends [] (trunkLog.push 2 (.bytes [98])) := by
  have suffixes := (forest_suffixes branchedForest branchedForest_reachable).2.2.1
  have above := suffixes (trunkLog.push 2 (.bytes [98])) (by decide) trunkLog (by decide) [.bytes [98]]
  have beside := suffixes (trunkLog.push 2 (.bytes [98])) (by decide) (trunkLog.push 3 (.bytes [99])) (by decide) []
  exact ⟨above.mp (by decide), fun descends => absurd (beside.mpr descends) (by decide)⟩

end MoshModel
