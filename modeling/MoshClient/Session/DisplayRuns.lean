import MoshClient.Session.SessionRuns

namespace MoshModel

open Transition

namespace SessionLoop

variable {D : Type}

/-- The logs that are kept alive: the engine's, and one for each state held. -/
def liveNodes (engineAt : EventLog) (received : List (TimestampedState HostStreamState)) : List LogNode :=
  engineAt.node :: received.map fun s => s.state.log.node

/-- An instruction's diff is applied once its throwaway has culled the queue, so the allocator answers
    with addresses that nothing left alive lies at. -/
def freshly (loop : SessionLoop D) : SessionAction → Prop
  | .handle inst addresses _ =>
    ((HostStreamState.allocated addresses inst.diff).map Prod.fst).Nodup ∧
      ∀ entry ∈ HostStreamState.allocated addresses inst.diff,
        ∀ root ∈ liveNodes loop.engineAt (loop.receiver.kept inst.throwawayNum), entry.1 ∉ root.addresses
  | _ => True

instance (loop : SessionLoop D) (action : SessionAction) : Decidable (loop.freshly action) :=
  match action with
  | .handle _ _ _ => inferInstanceAs (Decidable (_ ∧ _))
  | .drain _ _ | .tick _ _ _ _ | .waitTime _ _ _ | .resizeDisplay _ _ | .takeHostBytes
  | .setHostBytesCapture _ | .setPrediction _ => inferInstanceAs (Decidable True)

end SessionLoop

/-- A session whose distinct live log nodes get distinct addresses. -/
def allocatingMachine {D : Type} [MoshDisplay D] (zlib : Zlib) (first : SessionLoop D) :
    Machine (SessionLoop D) SessionAction :=
  { sessionMachine zlib first with allowed := SessionLoop.freshly }

instance {D : Type} [MoshDisplay D] (zlib : Zlib) (first loop : SessionLoop D) (action : SessionAction) :
    Decidable ((allocatingMachine zlib first).allowed loop action) :=
  inferInstanceAs (Decidable (loop.freshly action))

namespace SessionLoop

variable {D : Type}

/-- The display shows the newest state: it was fed that state's log, at whose end the engine is. -/
structure Showing (loop : SessionLoop D) : Prop where
  ascending : loop.receiver.Ascending
  coherent : Chain.Coherent (liveNodes loop.engineAt loop.receiver.received)
  fed : loop.display.fed = loop.receiver.latestState.log.iter
  position : loop.engineAt = loop.receiver.latestState.log

theorem mem_liveNodes {engineAt : EventLog} {received : List (TimestampedState HostStreamState)}
    {root : LogNode} :
    root ∈ liveNodes engineAt received ↔ root = engineAt.node ∨ ∃ s ∈ received, s.state.log.node = root := by
  simp [liveNodes]

theorem latest_live (engineAt : EventLog) (receiver : SspReceiver HostStreamState) :
    receiver.latestState.log.node ∈ liveNodes engineAt receiver.received :=
  mem_liveNodes.mpr (.inr ⟨receiver.latest, receiver.latest_mem, rfl⟩)

theorem liveNodes_mono {engineAt : EventLog} {fewer received : List (TimestampedState HostStreamState)}
    (subset : ∀ s ∈ fewer, s ∈ received) :
    ∀ root ∈ liveNodes engineAt fewer, root ∈ liveNodes engineAt received := by
  intro root member
  rcases mem_liveNodes.mp member with here | ⟨s, held, same⟩
  · exact mem_liveNodes.mpr (.inl here)
  · exact mem_liveNodes.mpr (.inr ⟨s, subset s held, same⟩)

theorem Showing.start (display : D) (cols rows : Int32) (predictionOn : Bool) :
    Showing (start display cols rows predictionOn) := by
  refine ⟨SspReceiver.new_ascending _ _, ?_, rfl, rfl⟩
  exact Chain.Coherent.nil.mono (by simp [liveNodes, SessionLoop.start, SspReceiver.new, EventLog.new,
    HostStreamState.new])

theorem Showing.coherent_process {loop : SessionLoop D} (showing : Showing loop) {addresses : Nat → Address}
    {inst : TransportInstruction} {now : Nat} (fresh : loop.freshly (.handle inst addresses now)) :
    Chain.Coherent (liveNodes loop.engineAt
      (loop.receiver.processInstruction (HostStreamState.applyString addresses) inst now).2.received) := by
  have cases := SspReceiver.processInstruction_cases (HostStreamState.applyString addresses) loop.receiver inst now
  generalize loop.receiver.processInstruction (HostStreamState.applyString addresses) inst now = outcome at *
  obtain ⟨result, after⟩ := outcome
  have kept : Chain.Coherent (liveNodes loop.engineAt (loop.receiver.kept inst.throwawayNum)) :=
    showing.coherent.mono (liveNodes_mono fun s member => (SspReceiver.mem_kept.mp member).1)
  cases cases with
  | refused unculled uninserted => exact showing.coherent
  | dropped culled uninserted queue =>
    dsimp only
    rw [queue]
    exact kept
  | @inserted reference state base after culled queue held named applied insertion =>
    subst insertion
    rw [queue] at held
    have live : reference.state.log.node ∈ liveNodes loop.engineAt (loop.receiver.kept inst.throwawayNum) :=
      mem_liveNodes.mpr (.inr ⟨reference, held, rfl⟩)
    have extended : Chain.Coherent
        (state.log.node :: liveNodes loop.engineAt (loop.receiver.kept inst.throwawayNum)) := by
      by_cases empty : inst.diff = []
      · rw [if_pos empty] at applied
        obtain rfl := Except.ok.inj applied
        refine kept.mono fun root member => ?_
        rcases List.mem_cons.mp member with rfl | member
        · exact live
        · exact member
      · rw [if_neg empty] at applied
        rw [HostStreamState.applyString_node applied]
        exact kept.extend live fresh.1 fresh.2
    refine extended.mono fun root member => ?_
    rcases mem_liveNodes.mp member with rfl | ⟨s, isHeld, rfl⟩
    · exact List.mem_cons_of_mem _ (mem_liveNodes.mpr (.inl rfl))
    · rcases (SspReceiver.mem_insertState _ _ _ _).mp isHeld with rfl | isHeld
      · exact List.mem_cons_self
      · rw [queue] at isHeld
        exact List.mem_cons_of_mem _ (mem_liveNodes.mpr (.inr ⟨s, isHeld, rfl⟩))

theorem Advanced.latest {loop : SessionLoop D} {fed : List HostEvent} {engineAt : EventLog}
    (advanced : Advanced loop fed engineAt)
    (coherent : Chain.Coherent (liveNodes loop.engineAt loop.receiver.received))
    (before : loop.display.fed = loop.engineAt.iter) :
    fed = loop.receiver.latestState.log.iter ∧ engineAt = loop.receiver.latestState.log := by
  have newest := latest_live loop.engineAt loop.receiver
  have engine : loop.engineAt.node ∈ liveNodes loop.engineAt loop.receiver.received :=
    mem_liveNodes.mpr (.inl rfl)
  cases advanced with
  | there found =>
    have same := EventLog.suffixOver_nil coherent newest engine found
    exact ⟨before.trans (congrArg _ same), same⟩
  | fed found =>
    refine ⟨?_, rfl⟩
    rw [before]
    exact (EventLog.suffixOver_iter coherent newest engine found).symm
  | rebuilt => exact ⟨rfl, rfl⟩

variable [MoshDisplay D]

theorem Showing.handle {loop : SessionLoop D} (showing : Showing loop) {addresses : Nat → Address}
    {inst : TransportInstruction} {now : Nat} (fresh : loop.freshly (.handle inst addresses now)) :
    Showing (loop.handleInstruction addresses inst now) := by
  have cases := loop.handleInstruction_cases addresses inst now
  have coherent := showing.coherent_process fresh
  obtain ⟨ascending, newest⟩ := SspReceiver.processInstruction_latest
    (HostStreamState.applyString addresses) showing.ascending inst now
  generalize loop.receiver.processInstruction (HostStreamState.applyString addresses) inst now = outcome at *
  generalize loop.handleInstruction addresses inst now = after at *
  cases cases with
  | kept queue older display position acked =>
    subst queue
    obtain ⟨num, hadDiff, state, isLatest, -⟩ | ⟨-, same⟩ := newest
    · exact absurd isLatest (older num hadDiff state)
    · have latest : after.receiver.latestState = loop.receiver.latestState :=
        congrArg TimestampedState.state same
      rw [← position] at coherent
      refine ⟨ascending, coherent, ?_, ?_⟩
      · rw [display, latest]
        exact showing.fed
      · rw [position, latest]
        exact showing.position
  | @shown num hadDiff state receiver heard queue display position acked =>
    subst queue
    obtain ⟨advanced, queue, -⟩ := heard.showLatest_spec num
    dsimp only at coherent ascending
    rw [← position] at coherent
    have before : heard.display.fed = heard.engineAt.iter := by
      rw [display, position, showing.fed, showing.position]
    obtain ⟨fed, engineAt⟩ := advanced.latest coherent before
    refine ⟨?_, ?_, ?_, ?_⟩
    · rw [queue]
      exact ascending
    · rw [queue, engineAt]
      refine coherent.mono fun root member => ?_
      rcases mem_liveNodes.mp member with rfl | held
      · exact latest_live _ _
      · exact mem_liveNodes.mpr (.inr held)
    · rw [queue]
      exact fed
    · rw [queue]
      exact engineAt

theorem Showing.next {loop : SessionLoop D} (showing : Showing loop) (zlib : Zlib) {action : SessionAction}
    (fresh : loop.freshly action) : Showing (loop.next zlib action) := by
  rcases handle_or_not action with ⟨inst, addresses, now, rfl⟩ | unhandled
  · exact showing.handle fresh
  · obtain ⟨receiver, position, display, -⟩ := loop.next_frame zlib action unhandled
    refine ⟨?_, ?_, ?_, ?_⟩
    · rw [receiver]
      exact showing.ascending
    · rw [receiver, position]
      exact showing.coherent
    · rw [receiver, display]
      exact showing.fed
    · rw [receiver, position]
      exact showing.position

end SessionLoop

variable {D : Type} [MoshDisplay D]

/-- After any instructions, the display has been fed exactly the newest state's log. -/
theorem display_shows_latest (zlib : Zlib) (display : D) (cols rows : Int32) (predictionOn : Bool)
    (loop : SessionLoop D)
    (reached : (allocatingMachine zlib (SessionLoop.start display cols rows predictionOn)).Reachable loop) :
    loop.display.fed = loop.receiver.latestState.log.iter ∧ loop.engineAt = loop.receiver.latestState.log := by
  have showing : loop.Showing := reached.invariant (SessionLoop.Showing.start display cols rows predictionOn)
    fun _ _ _ showing fresh => showing.next zlib fresh
  exact ⟨showing.fed, showing.position⟩

/-- A state on top of the last, one that branches below it and so rebuilds the display, a replay, and a
    state whose node takes the address of one that died with the rebuild. -/
def branchingActions : List SessionAction :=
  [.handle (painting 0 1 0 97) (fun i => 100 + i) 10, .handle (painting 1 2 0 98) (fun i => 200 + i) 20,
    .resizeDisplay 100 30, .handle (painting 1 3 1 99) (fun i => 300 + i) 30,
    .handle (painting 1 2 0 98) (fun i => 400 + i) 40, .handle (painting 3 4 3 100) (fun i => 200 + i) 50]

def branchingLoop : SessionLoop PlainScreen :=
  branchingActions.foldl (allocatingMachine sampleZlib plainStart).next plainStart

theorem display_shows_latest_branching :
    branchingLoop.display.engine.text = [97, 99, 100] ∧
      branchingLoop.display.fed = branchingLoop.receiver.latestState.log.iter :=
  ⟨by decide +kernel, (display_shows_latest sampleZlib (MoshDisplay.newBlank 80 24) 80 24 true branchingLoop
    ⟨_, Machine.Run.start.follow (show (allocatingMachine sampleZlib plainStart).Follows plainStart
      branchingActions by decide +kernel)⟩).1⟩

end MoshModel
