import MoshClient.Session.ServerScreen

namespace MoshModel

open Transition

theorem SspSender.tick_ack {S : Type} [DecidableEq S] [SspSentState S] (zlib : Zlib) (sender : SspSender S)
    (now rto sendInterval mtu : Nat) (fragmenter : Fragmenter) :
    ∀ sending ∈ (sender.tick zlib now rto sendInterval mtu fragmenter).sending,
      sending.call.inst.ackNum = sender.ackNum := by
  have prepared := (sender.prepared_fields now rto).2
  intro sending member
  obtain ⟨-, -, -, ⟨quiet, -⟩ | ⟨base, inst, framed, -, sent, -⟩⟩ :=
    sender.tick_due zlib now rto sendInterval mtu fragmenter
  · rw [quiet] at member
    cases member
  · rw [sent] at member
    rw [← Option.some.inj member, Fragmenter.send_call]
    exact framed.ack.trans prepared

namespace RunLoop

variable {D F : Type}

def framing (code : LoopCode F) (run : RunLoop D F) (action : RunAction) : List Sending :=
  match action, run.phase, run.wired.loop.fatal with
  | .drained, .draining now, none =>
    (run.wired.loop.sender.tick code.zlib now (run.rto code) (run.sendInterval code) (fragmentMtu run.mtu)
      run.wired.loop.fragmenter).sending.toList
  | _, _, _ => []

def taking (code : LoopCode F) (run : RunLoop D F) : RunAction → List TransportInstruction
  | .receive bytes addresses now sampled =>
    (do
      let fragment ← WiredLoop.fragmentOf code.toWireCode run.wired.opener (.datagram bytes addresses now sampled)
      (run.wired.assembly.addFragment code.zlib fragment).1).toList
  | _ => []

theorem framing_toList (code : LoopCode F) (run : RunLoop D F) (action : RunAction) :
    ∃ framed : Option Sending, run.framing code action = framed.toList := by
  unfold framing
  split
  · exact ⟨_, rfl⟩
  · exact ⟨none, rfl⟩

theorem framing_ack {code : LoopCode F} {run : RunLoop D F} {action : RunAction} (linked : run.wired.loop.Linked) :
    ∀ sending ∈ run.framing code action, sending.call.inst.ackNum = run.wired.loop.receiver.latest.num := by
  intro sending member
  unfold framing at member
  split at member
  · rw [← linked.acked]
    exact SspSender.tick_ack code.zlib _ _ _ _ _ _ sending (Option.mem_toList.mp member)
  · exact absurd member List.not_mem_nil

variable [MoshDisplay D] {code : LoopCode F} {run after : RunLoop D F} {action : RunAction}

omit [MoshDisplay D] in
theorem Takes.taking {inst : TransportInstruction} (takes : Takes code run action inst) :
    inst ∈ run.taking code action := by
  obtain ⟨bytes, addresses, now, sampled, fragment, rfl, carried, completed⟩ := takes
  unfold RunLoop.taking
  dsimp only
  rw [carried]
  exact Option.mem_toList.mpr completed

theorem Stepped.newest (stepped : Stepped code run action after) (linked : run.wired.loop.Linked) :
    run.wired.loop.receiver.latest.num ≤ after.wired.loop.receiver.latest.num := by
  obtain ⟨events, fatal, -, same⟩ | ⟨bytes, addresses, now, sampled, inst, -, takes, handled⟩ |
    ⟨inner, unhandled, next⟩ := stepped.within
  · rw [same]
    exact UInt64.le_refl _
  · rw [handled]
    cases (SessionLoop.handleInstruction_announced linked addresses inst now).1 with
    | silent events grown => exact grown
    | screen events newer newest =>
      rw [newest]
      exact UInt64.le_of_lt newer
  · rw [next, (run.wired.loop.next_frame code.zlib inner unhandled).1]
    exact UInt64.le_refl _

/-- The acks framed so far ascend to the newest state at most, and name states that came in. -/
structure Acking (framed : List Sending) (taken : List TransportInstruction) (run : RunLoop D F) : Prop where
  ascending : framed.Pairwise fun earlier later => earlier.call.inst.ackNum ≤ later.call.inst.ackNum
  newest : ∀ sending ∈ framed, sending.call.inst.ackNum ≤ run.wired.loop.receiver.latest.num
  came : ∀ sending ∈ framed, sending.call.inst.ackNum ∈ 0 :: taken.map TransportInstruction.newNum
  held : ∀ s ∈ run.wired.loop.receiver.received, s.num ∈ 0 :: taken.map TransportInstruction.newNum

theorem Acking.step {framed : List Sending} {taken : List TransportInstruction} (acking : Acking framed taken run)
    (linked : run.wired.loop.Linked) (stepped : Stepped code run action after) :
    Acking (framed ++ run.framing code action) (taken ++ run.taking code action) after := by
  have grown := stepped.newest linked
  have now : ∀ sending ∈ run.framing code action, sending.call.inst.ackNum = run.wired.loop.receiver.latest.num :=
    framing_ack linked
  have more : ∀ num ∈ 0 :: taken.map TransportInstruction.newNum,
      num ∈ 0 :: (taken ++ run.taking code action).map TransportInstruction.newNum := by
    intro num member
    rw [List.map_append, ← List.cons_append]
    exact List.mem_append_left _ member
  refine ⟨?_, ?_, ?_, ?_⟩
  · rw [List.pairwise_append]
    refine ⟨acking.ascending, ?_, ?_⟩
    · obtain ⟨framed, same⟩ := run.framing_toList code action
      rw [same]
      cases framed with
      | none => exact .nil
      | some sending => exact List.pairwise_singleton _ _
    · intro earlier old later new
      rw [now later new]
      exact acking.newest earlier old
  · intro sending member
    rcases List.mem_append.mp member with old | new
    · exact UInt64.le_trans (acking.newest sending old) grown
    · rw [now sending new]
      exact grown
  · intro sending member
    apply more
    rcases List.mem_append.mp member with old | new
    · exact acking.came sending old
    · rw [now sending new]
      exact acking.held _ (SspReceiver.latest_mem _)
  · intro s member
    rcases stepped.learned s member with old | ⟨inst, takes, named⟩
    · exact more _ (acking.held s old)
    · rw [named, List.map_append]
      apply List.mem_cons_of_mem
      exact List.mem_append_right _ (List.mem_map_of_mem takes.taking)

/-- Against any network, a framed instruction acknowledges the newest state held at that moment; the acks never
    go back, and name nothing that did not come in. -/
theorem acks_follow_received (code : LoopCode F) (display : D) (cols rows : Int32) (predictionOn : Bool)
    (family : SocketFamily) (hopIntervalMs : Nat) (trace : List RunAction) (run : RunLoop D F)
    (reached : (runMachine code (start code display cols rows predictionOn family hopIntervalMs)).Run trace run) :
    let machine := runMachine code (start code display cols rows predictionOn family hopIntervalMs)
    let framed := machine.emitted (framing code) machine.init trace
    let taken := machine.emitted (taking code) machine.init trace
    (framed.Pairwise fun earlier later => earlier.call.inst.ackNum ≤ later.call.inst.ackNum) ∧
      (∀ sending ∈ framed, sending.call.inst.ackNum ∈ 0 :: taken.map TransportInstruction.newNum) ∧
      ∀ action, ∀ sending ∈ run.framing code action,
        sending.call.inst.ackNum = run.wired.loop.receiver.latest.num := by
  intro machine framed taken
  have linked : ∀ {trace : List RunAction} {run : RunLoop D F}, machine.Run trace run → run.wired.loop.Linked := by
    intro trace run reached
    obtain ⟨_, _, shows, -⟩ := (run_told reached).standing
    exact shows.linked
  have acking : Acking framed taken run := by
    refine reached.invariant (motive := fun trace run =>
      Acking (machine.emitted (framing code) machine.init trace) (machine.emitted (taking code) machine.init trace)
        run) ?_ ?_
    · refine ⟨.nil, fun sending member => absurd member List.not_mem_nil,
        fun sending member => absurd member List.not_mem_nil, ?_⟩
      intro s member
      rw [List.mem_singleton.mp member]
      exact List.mem_cons_self ..
    · intro trace run action before acking allowed
      have before : machine.Run trace run := before
      rw [before.emitted_snoc action, before.emitted_snoc action]
      exact acking.step (linked before) (next_stepped code run action allowed)
  exact ⟨acking.ascending, acking.came, fun action => framing_ack (linked reached)⟩

def quitActions : List RunAction :=
  clientTrace (Exchange.paintSays ++ Exchange.paintArrives ++ Exchange.quitSays ++ Exchange.quitEnds)

theorem acks_follow_received_quit :
    let machine := runMachine sampleCode Exchange.paintStart.client
    (machine.emitted (framing sampleCode) machine.init quitActions).map (fun sending => sending.call.inst.ackNum) =
        [2, shutdownNum] ∧
      ∀ sending ∈ machine.emitted (framing sampleCode) machine.init quitActions, sending.call.inst.ackNum ∈
        0 :: (machine.emitted (taking sampleCode) machine.init quitActions).map TransportInstruction.newNum :=
  ⟨by decide +kernel, (acks_follow_received sampleCode (MoshDisplay.newBlank 80 24) 80 24 true .v4 10000 quitActions
    Exchange.quitExchange.client (Exchange.client_run Exchange.quitExchange_run.unguard)).2.1⟩

end RunLoop

end MoshModel
