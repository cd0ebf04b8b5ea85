import MoshClient.Ssp.TwoParty
import MoshClient.Fragment.Integrity

namespace MoshModel

open Transition

/-- Every state that the receiver holds is the log that the sender had pushed when it assigned its number,
    and every diff in flight leads from the log of its base to the log of its state. -/
theorem state_agreement (zlib : Zlib) (senderNow receiverNow sendMindelay : Nat) (system : TwoParty)
    (reached : (twoPartyMachine zlib senderNow receiverNow sendMindelay).Reachable system) :
    let assigned := system.config.assigned
    (∀ s ∈ system.receiver.received, (s.num, s.state.events) ∈ assigned) ∧
      (∀ left ∈ assigned, ∀ right ∈ assigned, left.1 = right.1 → left.2 = right.2) ∧
      ∀ inst, system.Emitted inst → ∃ old new, (inst.oldNum, old) ∈ assigned ∧
        (inst.newNum, new) ∈ assigned ∧
        (if inst.diff = [] then .ok ⟨old⟩ else UserStream.applyString ⟨old⟩ inst.diff) = .ok ⟨new⟩ := by
  have agreed := TwoParty.reachable_agreed reached
  obtain ⟨_, _, chronicle, -⟩ := agreed.sound.traced
  refine ⟨agreed.held, chronicle.functional, ?_⟩
  rintro inst ⟨sending, sent, rfl, -⟩
  have faithful := agreed.sound.faithful sending sent
  obtain ⟨old, tail, origin, -, -⟩ := faithful.logs
  obtain ⟨new, assigned, applied⟩ := faithful.apply chronicle.functional origin
  exact ⟨old, new, origin, assigned, applied⟩

namespace SspReceiver

variable {S : Type}

theorem insertState_ne_noReference (base : SspReceiver S) (added : TimestampedState S) (hadDiff : Bool) :
    (base.insertState added hadDiff).1 ≠ .noReference := by
  unfold insertState
  split <;> simp

theorem processInstruction_referenced (applyString : S → Bytes → Except WireError S)
    (receiver : SspReceiver S) (inst : TransportInstruction) (now : Nat)
    (version : inst.protocolVersion = moshProtocolVersion) (held : receiver.holds inst.oldNum = true)
    (taken : (receiver.processThrowawayUntil inst.throwawayNum).1 = true)
    (outlives : (receiver.processThrowawayUntil inst.throwawayNum).2.holds inst.oldNum = true) :
    (receiver.processInstruction applyString inst now).1 ≠ .ok .noReference := by
  unfold processInstruction
  rw [if_neg (not_not.mpr version)]
  by_cases known : receiver.holds inst.newNum = true
  · rw [if_pos known]
    intro answer
    cases answer
  · rw [if_neg known, held]
    cases thrown : receiver.processThrowawayUntil inst.throwawayNum with
    | mk kept culled =>
      rw [thrown] at taken outlives
      obtain rfl : kept = true := taken
      obtain ⟨s, member, num⟩ := (holds_iff culled inst.oldNum).mp outlives
      cases found : culled.received.find? fun s => s.num = inst.oldNum with
      | none => exact absurd num (by simpa using List.find?_eq_none.mp found s member)
      | some reference =>
        simp only [found, Bool.not_true, Bool.false_eq_true, if_false]
        split
        · intro answer
          cases answer
        · split
          · intro answer
            cases answer
          · exact fun answer => insertState_ne_noReference _ _ _ (Except.ok.inj answer)

end SspReceiver

/-- The receiver always holds the state that the sender falls back to, so no throwaway number in flight
    costs the receiver its queue or the base it came with. -/
theorem fallback_base_held (zlib : Zlib) (senderNow receiverNow sendMindelay : Nat) (system : TwoParty)
    (reached : (twoPartyMachine zlib senderNow receiverNow sendMindelay).Reachable system) :
    let front := system.config.sender.queue.front.num
    system.receiver.holds front = true ∧ ∀ inst, system.Emitted inst →
      let thrown := system.receiver.processThrowawayUntil inst.throwawayNum
      thrown.1 = true ∧
        (system.receiver.holds inst.oldNum = true → thrown.2.holds inst.oldNum = true) ∧
        (inst.oldNum = front → ∀ now,
          (system.receiver.processInstruction UserStream.applyString inst now).1 ≠ .ok .noReference) := by
  have agreed := TwoParty.reachable_agreed reached
  have held := agreed.fallback _ agreed.front (UInt64.le_refl _)
  refine ⟨held, ?_⟩
  rintro inst ⟨sending, sent, rfl, -⟩
  have faithful := agreed.sound.faithful sending sent
  have throwaway := agreed.throwaways sending sent
  obtain ⟨s, member, same⟩ := (SspReceiver.holds_iff system.receiver _).mp held
  rcases system.receiver.processThrowawayUntil_spec sending.call.inst.throwawayNum with
    ⟨taken, queue⟩ | ⟨-, -, beyond⟩
  · have outlives : system.receiver.holds sending.call.inst.oldNum = true →
        (system.receiver.processThrowawayUntil sending.call.inst.throwawayNum).2.holds
          sending.call.inst.oldNum = true := fun held =>
      TwoParty.holds_kept faithful.throwaway (UInt64.le_refl _) held queue
    refine ⟨taken, outlives, ?_⟩
    intro base now
    rw [← base] at held
    exact system.receiver.processInstruction_referenced _ _ now faithful.version held taken (outlives held)
  · have lost := beyond s member
    rw [same] at lost
    exact absurd (UInt64.lt_of_lt_of_le lost throwaway) (UInt64.lt_irrefl _)

def pushedEvents (trace : List TwoPartyAction) : List UserEvent :=
  trace.flatMap fun
    | .sender (.pushBytes bytes) => bytes.map .byte
    | .sender (.pushResize width height) => [.resize width height]
    | _ => []

theorem trace_recorded {zlib : Zlib} {senderNow receiverNow sendMindelay : Nat}
    {trace : List TwoPartyAction} {system : TwoParty}
    (run : (twoPartyMachine zlib senderNow receiverNow sendMindelay).Run trace system) :
    system.config.pushed = pushedEvents trace ∧ (system.config.sender.shutdownInProgress = true →
      ∃ now, .sender (.startShutdown now) ∈ trace) := by
  refine run.invariant (motive := fun trace system => system.config.pushed = pushedEvents trace ∧
    (system.config.sender.shutdownInProgress = true → ∃ now, .sender (.startShutdown now) ∈ trace)) ?_ ?_
  · exact ⟨rfl, fun shutting => by cases shutting⟩
  · intro trace system action before ih allowed
    obtain ⟨pushed, shutdown⟩ := ih
    rw [pushedEvents, List.flatMap_append, ← pushedEvents, ← pushed, List.flatMap_singleton]
    have carried : system.config.sender.shutdownInProgress = true →
        ∃ now, .sender (.startShutdown now) ∈ trace ++ [action] := fun shutting => by
      obtain ⟨now, member⟩ := shutdown shutting
      exact ⟨now, List.mem_append_left _ member⟩
    have agreed := TwoParty.reachable_agreed ⟨_, before⟩
    cases action with
    | deliver inst now => exact ⟨(List.append_nil _).symm, carried⟩
    | sender action =>
      cases action with
      | pushBytes bytes => exact ⟨rfl, carried⟩
      | pushResize width height => exact ⟨rfl, carried⟩
      | startShutdown now => exact ⟨(List.append_nil _).symm, fun _ => ⟨now, by simp⟩⟩
      | tick now rto sendInterval mtu =>
        obtain ⟨-, -, same, -⟩ :=
          SenderConfig.tick_step agreed.sound now rto sendInterval mtu allowed.1.2
        exact ⟨(List.append_nil _).symm, fun shutting => carried (same.symm.trans shutting)⟩
      | acknowledge _ | setAckNum _ | setDataAck | remoteHeard _ | waitTime _ _ _ =>
        exact ⟨(List.append_nil _).symm, carried⟩

/-- A shutdown that the sender takes to be acknowledged lost nothing that was ever pushed. -/
theorem clean_shutdown (zlib : Zlib) (senderNow receiverNow sendMindelay : Nat)
    (trace : List TwoPartyAction) (system : TwoParty)
    (run : (twoPartyMachine zlib senderNow receiverNow sendMindelay).Run trace system)
    (acknowledged : system.config.sender.shutdownAcknowledged = true) :
    (∃ now, .sender (.startShutdown now) ∈ trace) ∧
      (∃ inst, system.Emitted inst ∧ inst.newNum = shutdownNum) ∧
      ∃ s ∈ system.receiver.received, s.num = shutdownNum ∧ s.state.events = pushedEvents trace := by
  have agreed := TwoParty.reachable_agreed ⟨trace, run⟩
  obtain ⟨pushed, shutdown⟩ := trace_recorded run
  obtain ⟨_, _, chronicle, -⟩ := agreed.sound.traced
  have front : system.config.sender.queue.front.num = shutdownNum := decide_eq_true_eq.mp acknowledged
  have reported := agreed.front
  have held := agreed.fallback _ reported (UInt64.le_refl _)
  rw [front] at reported held
  obtain ⟨s, member, last⟩ := (SspReceiver.holds_iff system.receiver shutdownNum).mp held
  obtain ⟨shutting, all⟩ := chronicle.final _ (agreed.held s member) last
  refine ⟨shutdown shutting, ?_, s, member, last, all.trans pushed⟩
  rcases List.mem_cons.mp reported with zero | reported
  · cases zero
  · obtain ⟨sending, sent, num, whole⟩ := agreed.produced _ reported
    exact ⟨sending.call.inst, ⟨sending, sent, rfl, whole⟩, num⟩

/-- A session of two keys and a resize: the keys arrive, twice, are acknowledged, and the shutdown state
    with the resize arrives and is acknowledged. -/
def quitTrace : List TwoPartyAction :=
  let keys : TransportInstruction :=
    { protocolVersion := 2, oldNum := 0, newNum := 1, ackNum := 0, throwawayNum := 0,
      diff := [10, 6, 18, 4, 34, 2, 104, 105], chaff := [] }
  let last : TransportInstruction :=
    { protocolVersion := 2, oldNum := 1, newNum := shutdownNum, ackNum := 0, throwawayNum := 1,
      diff := [10, 6, 26, 4, 40, 80, 48, 24], chaff := [] }
  [.sender (.pushBytes [104, 105]), .sender (.tick 8 1000 250 500), .sender (.tick 250 1000 250 500),
    .deliver keys 300, .deliver keys 310, .sender (.acknowledge 1), .sender (.pushResize 80 24),
    .sender (.startShutdown 400), .sender (.tick 500 1000 250 500), .deliver last 560,
    .sender (.acknowledge shutdownNum)]

def quitSystem : TwoParty := quitTrace.foldl (twoPartyMachine sampleZlib 0 0 1).next (TwoParty.start 0 0 1)

theorem quitSystem_run : (twoPartyMachine sampleZlib 0 0 1).Run quitTrace quitSystem :=
  Machine.Run.start.follow (by decide +kernel)

theorem state_agreement_quit : quitSystem.receiver.received.map TimestampedState.num = [1, shutdownNum] ∧
    ∀ s ∈ quitSystem.receiver.received, (s.num, s.state.events) ∈ quitSystem.config.assigned :=
  ⟨by decide +kernel, (state_agreement sampleZlib 0 0 1 quitSystem ⟨_, quitSystem_run⟩).1⟩

theorem fallback_base_held_quit :
    quitSystem.receiver.holds quitSystem.config.sender.queue.front.num = true :=
  (fallback_base_held sampleZlib 0 0 1 quitSystem ⟨_, quitSystem_run⟩).1

theorem clean_shutdown_quit : ∃ s ∈ quitSystem.receiver.received, s.num = shutdownNum ∧
    s.state.events = [.byte 104, .byte 105, .resize 80 24] :=
  (clean_shutdown sampleZlib 0 0 1 quitTrace quitSystem quitSystem_run (by decide +kernel)).2.2

end MoshModel
