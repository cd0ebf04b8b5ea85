import MoshClient.Ssp.UserStream

namespace MoshModel

def receivedQueueCap : Nat := 1024
def quenchWindowMs : Nat := 15000

inductive SspError where
  | protocolVersion (version : UInt32)
  | badDiff (reason : String)
deriving DecidableEq

def SspError.message : SspError → String
  | .protocolVersion version => s!"peer protocol_version {version} != 2"
  | .badDiff reason => s!"state diff failed to parse: {reason}"

inductive RecvOutcome (S : Type) where
  | latest (num : UInt64) (hadDiff : Bool) (state : S)
  | outOfOrder (num : UInt64) (hadDiff : Bool)
  | duplicate
  | noReference
  | quenched
deriving DecidableEq

structure SspReceiver (S : Type) where
  received : List (TimestampedState S)
  quenchUntil : Nat
  nonempty : received ≠ []

namespace SspReceiver

variable {S : Type}

def new (initial : S) (now : Nat) : SspReceiver S :=
  { received := [{ timestamp := now, num := 0, state := initial }], quenchUntil := 0,
    nonempty := List.cons_ne_nil _ _ }

def latest (receiver : SspReceiver S) : TimestampedState S := receiver.received.getLast receiver.nonempty

def latestState (receiver : SspReceiver S) : S := receiver.latest.state

def holds (receiver : SspReceiver S) (num : UInt64) : Bool := receiver.received.any fun s => s.num = num

/-- Whether the throwaway was taken; one that would empty the queue is refused without culling. -/
def processThrowawayUntil (receiver : SspReceiver S) (throwawayNum : UInt64) : Bool × SspReceiver S :=
  if survives : receiver.received.any fun s => throwawayNum ≤ s.num then
    (true, { receiver with
      received := receiver.received.filter fun s => throwawayNum ≤ s.num
      nonempty := by
        obtain ⟨s, member, kept⟩ := List.any_eq_true.mp survives
        exact List.ne_nil_of_mem (List.mem_filter.mpr ⟨member, kept⟩) })
  else (false, receiver)

def insertState (receiver : SspReceiver S) (added : TimestampedState S) (hadDiff : Bool) :
    RecvOutcome S × SspReceiver S :=
  if receiver.latest.num < added.num then
    (.latest added.num hadDiff added.state,
      { receiver with received := receiver.received ++ [added], nonempty := by simp })
  else
    let position := receiver.received.findIdx fun s => added.num < s.num
    (.outOfOrder added.num hadDiff,
      { receiver with
        received := receiver.received.take position ++ added :: receiver.received.drop position
        nonempty := by simp })

def processInstruction (applyString : S → Bytes → Except WireError S) (receiver : SspReceiver S)
    (inst : TransportInstruction) (now : Nat) : Except SspError (RecvOutcome S) × SspReceiver S :=
  if inst.protocolVersion ≠ moshProtocolVersion then
    (.error (.protocolVersion inst.protocolVersion), receiver)
  else if receiver.holds inst.newNum then (.ok .duplicate, receiver)
  else if !receiver.holds inst.oldNum then (.ok .noReference, receiver)
  else
    match receiver.processThrowawayUntil inst.throwawayNum with
    | (false, same) => (.ok .noReference, same)
    | (true, culled) =>
      -- looked up again: the cull may have taken the reference
      match culled.received.find? fun s => s.num = inst.oldNum with
      | none => (.ok .noReference, culled)
      | some reference =>
        if receivedQueueCap < culled.received.length ∧ now < culled.quenchUntil then (.ok .quenched, culled)
        else
          let admitted := if receivedQueueCap < culled.received.length
            then { culled with quenchUntil := now + quenchWindowMs } else culled
          let hadDiff := !inst.diff.isEmpty
          match if hadDiff then applyString reference.state inst.diff else .ok reference.state with
          | .error e => (.error (.badDiff e.message), admitted)
          | .ok state =>
            let inserted := admitted.insertState
              { timestamp := now, num := inst.newNum, state := state } hadDiff
            (.ok inserted.1, inserted.2)

end SspReceiver

def insertedNum {S : Type} : Except SspError (RecvOutcome S) → Option UInt64
  | .ok (.latest num _ _) => some num
  | .ok (.outOfOrder num _) => some num
  | _ => none

namespace SspReceiver

variable {S : Type}

def kept (receiver : SspReceiver S) (throwawayNum : UInt64) : List (TimestampedState S) :=
  receiver.received.filter fun s => throwawayNum ≤ s.num

def CulledBy (receiver : SspReceiver S) (inst : TransportInstruction) : Prop :=
  inst.protocolVersion = moshProtocolVersion ∧ receiver.holds inst.newNum = false ∧
    receiver.holds inst.oldNum = true ∧ (receiver.processThrowawayUntil inst.throwawayNum).1 = true

/-- Everything one call can do to the queue. -/
inductive Processed (applyString : S → Bytes → Except WireError S) (receiver : SspReceiver S)
    (inst : TransportInstruction) (now : Nat) :
    Except SspError (RecvOutcome S) → SspReceiver S → Prop
  | refused {result : Except SspError (RecvOutcome S)} (unculled : ¬receiver.CulledBy inst)
      (uninserted : insertedNum result = none) :
      Processed applyString receiver inst now result receiver
  | dropped {result : Except SspError (RecvOutcome S)} {after : SspReceiver S}
      (culled : receiver.CulledBy inst) (uninserted : insertedNum result = none)
      (queue : after.received = receiver.kept inst.throwawayNum) :
      Processed applyString receiver inst now result after
  | inserted {reference : TimestampedState S} {state : S} {base after : SspReceiver S}
      (culled : receiver.CulledBy inst) (queue : base.received = receiver.kept inst.throwawayNum)
      (held : reference ∈ base.received) (named : reference.num = inst.oldNum)
      (applied : (if inst.diff = [] then .ok reference.state else applyString reference.state inst.diff) =
        .ok state)
      (insertion : (base.insertState { timestamp := now, num := inst.newNum, state := state }
        (!inst.diff.isEmpty)).2 = after) :
      Processed applyString receiver inst now
        (.ok (base.insertState { timestamp := now, num := inst.newNum, state := state }
          (!inst.diff.isEmpty)).1) after

theorem processThrowawayUntil_spec (receiver : SspReceiver S) (throwawayNum : UInt64) :
    ((receiver.processThrowawayUntil throwawayNum).1 = true ∧
        (receiver.processThrowawayUntil throwawayNum).2.received = receiver.kept throwawayNum) ∨
      ((receiver.processThrowawayUntil throwawayNum).1 = false ∧
        (receiver.processThrowawayUntil throwawayNum).2 = receiver ∧
        ∀ s ∈ receiver.received, s.num < throwawayNum) := by
  unfold processThrowawayUntil
  split
  · exact .inl ⟨rfl, rfl⟩
  · rename_i none
    refine .inr ⟨rfl, rfl, fun s member => ?_⟩
    simp only [List.any_eq_true, decide_eq_true_eq, not_exists, not_and] at none
    exact UInt64.not_le.mp (none s member)

/-- The quench once the call has got past the gate: armed again where the queue is over the cap. -/
def rearmed (receiver : SspReceiver S) (inst : TransportInstruction) (now : Nat) : Nat :=
  if receivedQueueCap < (receiver.kept inst.throwawayNum).length then now + quenchWindowMs
  else receiver.quenchUntil

def Admits (receiver : SspReceiver S) (inst : TransportInstruction) (now : Nat) : Prop :=
  (receiver.kept inst.throwawayNum).length ≤ receivedQueueCap ∨ receiver.quenchUntil ≤ now

/-- How one call ends, with what it leaves of the queue and of the quench. -/
inductive Handled (applyString : S → Bytes → Except WireError S) (receiver : SspReceiver S)
    (inst : TransportInstruction) (now : Nat) :
    Except SspError (RecvOutcome S) → SspReceiver S → Prop
  | version (other : inst.protocolVersion ≠ moshProtocolVersion) :
      Handled applyString receiver inst now (.error (.protocolVersion inst.protocolVersion)) receiver
  | duplicate (known : receiver.holds inst.newNum = true) :
      Handled applyString receiver inst now (.ok .duplicate) receiver
  | unreferenced (missing : receiver.holds inst.oldNum = false ∨
        (receiver.processThrowawayUntil inst.throwawayNum).1 = false) :
      Handled applyString receiver inst now (.ok .noReference) receiver
  | culledAway {after : SspReceiver S} (culled : receiver.CulledBy inst)
      (queue : after.received = receiver.kept inst.throwawayNum)
      (quench : after.quenchUntil = receiver.quenchUntil) :
      Handled applyString receiver inst now (.ok .noReference) after
  | quenched {after : SspReceiver S} (culled : receiver.CulledBy inst)
      (queue : after.received = receiver.kept inst.throwawayNum)
      (quench : after.quenchUntil = receiver.quenchUntil) :
      Handled applyString receiver inst now (.ok .quenched) after
  | badDiff {after : SspReceiver S} {reason : String} (culled : receiver.CulledBy inst)
      (admits : receiver.Admits inst now) (queue : after.received = receiver.kept inst.throwawayNum)
      (quench : after.quenchUntil = receiver.rearmed inst now) :
      Handled applyString receiver inst now (.error (.badDiff reason)) after
  | inserted {reference : TimestampedState S} {state : S} {base after : SspReceiver S}
      (culled : receiver.CulledBy inst) (admits : receiver.Admits inst now)
      (queue : base.received = receiver.kept inst.throwawayNum)
      (quench : base.quenchUntil = receiver.rearmed inst now)
      (held : reference ∈ base.received) (named : reference.num = inst.oldNum)
      (applied : (if inst.diff = [] then .ok reference.state else applyString reference.state inst.diff) =
        .ok state)
      (insertion : (base.insertState { timestamp := now, num := inst.newNum, state := state }
        (!inst.diff.isEmpty)).2 = after) :
      Handled applyString receiver inst now
        (.ok (base.insertState { timestamp := now, num := inst.newNum, state := state }
          (!inst.diff.isEmpty)).1) after

theorem processThrowawayUntil_quenchUntil (receiver : SspReceiver S) (throwawayNum : UInt64) :
    (receiver.processThrowawayUntil throwawayNum).2.quenchUntil = receiver.quenchUntil := by
  unfold processThrowawayUntil
  split <;> rfl

theorem processInstruction_handled (applyString : S → Bytes → Except WireError S) (receiver : SspReceiver S)
    (inst : TransportInstruction) (now : Nat) :
    Handled applyString receiver inst now (receiver.processInstruction applyString inst now).1
      (receiver.processInstruction applyString inst now).2 := by
  unfold processInstruction
  by_cases version : inst.protocolVersion ≠ moshProtocolVersion
  · rw [if_pos version]
    exact .version version
  · rw [if_neg version]
    by_cases known : receiver.holds inst.newNum = true
    · rw [if_pos known]
      exact .duplicate known
    · rw [if_neg known]
      by_cases missing : (!receiver.holds inst.oldNum) = true
      · rw [if_pos missing]
        exact .unreferenced (.inl (by simpa using missing))
      · rw [if_neg missing]
        have spec := receiver.processThrowawayUntil_spec inst.throwawayNum
        have quench := receiver.processThrowawayUntil_quenchUntil inst.throwawayNum
        cases thrown : receiver.processThrowawayUntil inst.throwawayNum with
        | mk taken culled =>
          rw [thrown] at spec quench
          cases taken with
          | false =>
            obtain ⟨taken, -⟩ | ⟨-, rfl, -⟩ := spec
            · cases taken
            · exact .unreferenced (.inr (by rw [thrown]))
          | true =>
            have culledBy : receiver.CulledBy inst :=
              ⟨not_not.mp version, Bool.eq_false_iff.mpr known, by simpa using missing, by rw [thrown]⟩
            have queue : culled.received = receiver.kept inst.throwawayNum := by
              obtain ⟨-, queue⟩ | ⟨taken, -⟩ := spec
              · exact queue
              · cases taken
            cases found : culled.received.find? fun s => s.num = inst.oldNum with
            | none =>
              simp only [found]
              exact .culledAway culledBy queue quench
            | some reference =>
              simp only [found]
              by_cases quenched : receivedQueueCap < culled.received.length ∧ now < culled.quenchUntil
              · rw [if_pos quenched]
                exact .quenched culledBy queue quench
              · rw [if_neg quenched]
                have admits : receiver.Admits inst now := by
                  rw [queue, show culled.quenchUntil = receiver.quenchUntil from quench] at quenched
                  unfold Admits
                  omega
                generalize admittedEq : (if receivedQueueCap < culled.received.length
                  then { culled with quenchUntil := now + quenchWindowMs } else culled) = admitted
                have admittedQueue : admitted.received = receiver.kept inst.throwawayNum := by
                  rw [← admittedEq]
                  split <;> exact queue
                have admittedQuench : admitted.quenchUntil = receiver.rearmed inst now := by
                  rw [← admittedEq, rearmed, ← queue]
                  split
                  · rfl
                  · exact quench
                have held := List.mem_of_find?_eq_some found
                have named := List.find?_some found
                rw [queue, ← admittedQueue] at held
                cases applied : (if (!inst.diff.isEmpty) = true
                    then applyString reference.state inst.diff else .ok reference.state) with
                | error e => exact .badDiff culledBy admits admittedQueue admittedQuench
                | ok state =>
                  refine .inserted culledBy admits admittedQueue admittedQuench held (by simpa using named) ?_ rfl
                  rw [← applied]
                  cases inst.diff <;> rfl

theorem processInstruction_cases (applyString : S → Bytes → Except WireError S) (receiver : SspReceiver S)
    (inst : TransportInstruction) (now : Nat) :
    Processed applyString receiver inst now (receiver.processInstruction applyString inst now).1
      (receiver.processInstruction applyString inst now).2 := by
  have handled := receiver.processInstruction_handled applyString inst now
  generalize receiver.processInstruction applyString inst now = outcome at *
  obtain ⟨result, after⟩ := outcome
  cases handled with
  | version other => exact .refused (fun culled => other culled.1) rfl
  | duplicate known => exact .refused (fun culled => by simp [culled.2.1] at known) rfl
  | unreferenced missing => exact .refused (fun culled => by simp [culled.2.2.1, culled.2.2.2] at missing) rfl
  | culledAway culled queue quench => exact .dropped culled rfl queue
  | quenched culled queue quench => exact .dropped culled rfl queue
  | badDiff culled admits queue quench => exact .dropped culled rfl queue
  | inserted culled admits queue quench held named applied insertion =>
    exact .inserted culled queue held named applied insertion

end SspReceiver

end MoshModel
