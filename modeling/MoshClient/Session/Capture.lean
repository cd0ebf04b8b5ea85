import MoshClient.Session.DisplayRuns
import MoshClient.Library.Simulation

namespace MoshModel

open Transition

/-- The bytes among the events of the host. -/
def hostBytes (events : List HostEvent) : Bytes :=
  events.flatMap fun
    | .bytes bytes => bytes
    | .resize _ _ => []

theorem hostBytes_append (events more : List HostEvent) :
    hostBytes (events ++ more) = hostBytes events ++ hostBytes more := List.flatMap_append

namespace SessionLoop

variable {D : Type}

/-- What a call of `take_host_bytes` returns. -/
def taken (loop : SessionLoop D) : SessionAction → Bytes
  | .takeHostBytes => loop.pendingBytes
  | _ => []

variable [MoshDisplay D]

theorem feedAll_pending (loop : SessionLoop D) (display : FedDisplay D) (events : List HostEvent)
    (capture : loop.shared.captureHostBytes = true) :
    (loop.feedAll display events).pendingBytes = loop.pendingBytes ++ hostBytes events := by
  have fold : ∀ (screen : FedDisplay D × Bytes),
      (events.foldl (feedDisplay loop.shared.captureHostBytes) screen).2 = screen.2 ++ hostBytes events := by
    induction events with
    | nil => exact fun screen => (List.append_nil _).symm
    | cons event events ih =>
      intro screen
      have one : (feedDisplay loop.shared.captureHostBytes screen event).2 = screen.2 ++ hostBytes [event] := by
        rw [capture]
        cases event <;> simp [feedDisplay, hostBytes]
      rw [List.foldl_cons, ih, one, List.append_assoc, ← hostBytes_append, List.singleton_append]
  exact fold (display, loop.pendingBytes)

theorem showLatest_pending (loop : SessionLoop D) (num : UInt64) (capture : loop.shared.captureHostBytes = true) :
    let latest := loop.receiver.latestState.log
    (loop.showLatest num).shared.captureHostBytes = true ∧
      (loop.showLatest num).pendingBytes =
        loop.pendingBytes ++ hostBytes ((latest.suffixOver loop.engineAt).getD latest.iter) := by
  intro latest
  have settled : (loop.showLatest num).pendingBytes = loop.advanceEngine.2.pendingBytes ∧
      (loop.showLatest num).shared.captureHostBytes = loop.advanceEngine.2.shared.captureHostBytes := by
    unfold showLatest
    generalize loop.advanceEngine = advance
    obtain ⟨fed, advanced⟩ := advance
    dsimp only
    split <;> exact ⟨rfl, rfl⟩
  rw [settled.1, settled.2]
  unfold advanceEngine
  dsimp only
  cases loop.receiver.latestState.log.suffixOver loop.engineAt with
  | none => exact ⟨capture, loop.feedAll_pending _ _ capture⟩
  | some suffix =>
    dsimp only
    by_cases nothing : suffix.isEmpty = true
    · rw [if_pos nothing, List.isEmpty_iff.mp nothing]
      exact ⟨capture, (List.append_nil _).symm⟩
    · rw [if_neg nothing]
      exact ⟨capture, loop.feedAll_pending _ _ capture⟩

theorem handleInstruction_pending (loop : SessionLoop D) (addresses : Nat → Address) (inst : TransportInstruction)
    (now : Nat) :
    let captured (other : SessionLoop D) := other.pendingBytes = loop.pendingBytes ∧
      other.engineAt = loop.engineAt ∧ other.shared.captureHostBytes = loop.shared.captureHostBytes
    captured (loop.handleInstruction addresses inst now) ∨
      ∃ heard num, loop.handleInstruction addresses inst now = heard.showLatest num ∧ captured heard ∧
        heard.receiver =
          (loop.receiver.processInstruction (HostStreamState.applyString addresses) inst now).2 := by
  intro captured
  unfold handleInstruction
  by_cases version : inst.protocolVersion ≠ moshProtocolVersion
  · rw [if_pos version]
    exact .inl ⟨rfl, rfl, rfl⟩
  · rw [if_neg version]
    dsimp only
    rw [show (loop.acknowledge inst.ackNum).receiver = loop.receiver from rfl]
    generalize loop.receiver.processInstruction (HostStreamState.applyString addresses) inst now = outcome
    obtain ⟨result, receiver⟩ := outcome
    cases result with
    | error e => exact .inl ⟨rfl, rfl, rfl⟩
    | ok outcome =>
      cases outcome with
      | latest num hadDiff state => exact .inr ⟨_, num, rfl, ⟨rfl, rfl, rfl⟩, rfl⟩
      | outOfOrder num hadDiff => exact .inl ⟨rfl, rfl, rfl⟩
      | duplicate => exact .inl ⟨rfl, rfl, rfl⟩
      | noReference => exact .inl ⟨rfl, rfl, rfl⟩
      | quenched => exact .inl ⟨rfl, rfl, rfl⟩

/-- What was taken and what is pending end with all that the engine's log holds. -/
structure Captured (consumed : Bytes) (loop : SessionLoop D) : Prop where
  capture : loop.shared.captureHostBytes = true
  whole : hostBytes loop.engineAt.iter <:+ consumed ++ loop.pendingBytes

omit [MoshDisplay D] in
theorem Captured.of_fields {consumed later : Bytes} {loop after : SessionLoop D} (captured : Captured consumed loop)
    (capture : after.shared.captureHostBytes = loop.shared.captureHostBytes) (position : after.engineAt = loop.engineAt)
    (stream : later ++ after.pendingBytes = consumed ++ loop.pendingBytes) : Captured later after := by
  refine ⟨capture.trans captured.capture, ?_⟩
  rw [position, stream]
  exact captured.whole

theorem Captured.handle {consumed : Bytes} {loop : SessionLoop D} (captured : Captured consumed loop)
    (showing : Showing loop) {addresses : Nat → Address} {inst : TransportInstruction} {now : Nat}
    (fresh : loop.freshly (.handle inst addresses now)) :
    Captured consumed (loop.handleInstruction addresses inst now) := by
  have coherent := showing.coherent_process fresh
  have after := (showing.handle fresh).position
  obtain ⟨pending, position, capture⟩ | ⟨heard, num, shown, ⟨pending, position, capture⟩, receiver⟩ :=
    loop.handleInstruction_pending addresses inst now
  · exact captured.of_fields capture position (by rw [pending])
  · rw [← receiver, ← position] at coherent
    obtain ⟨stays, appended⟩ := heard.showLatest_pending num (capture.trans captured.capture)
    have newest := (heard.showLatest_spec num).2.1
    rw [shown] at after ⊢
    rw [newest] at after
    refine ⟨stays, ?_⟩
    rw [after, appended, pending, ← List.append_assoc]
    cases found : heard.receiver.latestState.log.suffixOver heard.engineAt with
    | none => exact List.suffix_append _ _
    | some suffix =>
      have live := latest_live heard.engineAt heard.receiver
      have engine : heard.engineAt.node ∈ liveNodes heard.engineAt heard.receiver.received :=
        mem_liveNodes.mpr (.inl rfl)
      obtain ⟨earlier, stream⟩ := captured.whole
      rw [EventLog.suffixOver_iter coherent live engine found, hostBytes_append, ← stream, position,
        List.append_assoc]
      exact List.suffix_append _ _

theorem Captured.next {consumed : Bytes} {loop : SessionLoop D} (captured : Captured consumed loop)
    (showing : Showing loop) (zlib : Zlib) {action : SessionAction} (fresh : loop.freshly action)
    (capturing : action ≠ .setHostBytesCapture false) :
    Captured (consumed ++ loop.taken action) (loop.next zlib action) := by
  have quiet : ∀ {after : SessionLoop D}, after.shared.captureHostBytes = loop.shared.captureHostBytes →
      after.engineAt = loop.engineAt → after.pendingBytes = loop.pendingBytes → Captured (consumed ++ []) after := by
    intro after capture position pending
    exact captured.of_fields capture position (by rw [List.append_nil, pending])
  cases action with
  | handle inst addresses now =>
    have nothing : consumed ++ loop.taken (.handle inst addresses now) = consumed := List.append_nil _
    rw [nothing]
    exact captured.handle showing fresh
  | takeHostBytes => exact captured.of_fields rfl rfl (List.append_nil _)
  | setHostBytesCapture enabled =>
    cases enabled with
    | false => exact absurd rfl capturing
    | true => exact quiet captured.capture.symm rfl rfl
  | tick now rto sendInterval mtu => exact quiet rfl rfl rfl
  | waitTime now rto sendInterval => exact quiet rfl rfl rfl
  | setPrediction enabled => exact quiet rfl rfl rfl
  | resizeDisplay width height =>
    dsimp only [SessionLoop.next, resizeDisplay]
    split <;> exact quiet rfl rfl rfl
  | drain command now =>
    cases command with
    | terminate => exact quiet rfl rfl rfl
    | startShutdown => exact quiet rfl rfl rfl
    | resize width height =>
      dsimp only [SessionLoop.next, drainCommand]
      split <;> exact quiet rfl rfl rfl
    | input bytes =>
      dsimp only [SessionLoop.next, drainCommand, predictInput]
      split
      · exact quiet rfl rfl rfl
      · split
        · exact quiet rfl rfl rfl
        · split <;> exact quiet rfl rfl rfl

end SessionLoop

variable {D : Type} [MoshDisplay D]

/-- While the capture stays on, what was taken of the host's bytes and what is pending end with all the bytes
    of the newest state, however the states branch: a rebuild brings the whole of it. -/
theorem capture_ends_with_latest (zlib : Zlib) (display : D) (cols rows : Int32) (predictionOn : Bool)
    (trace : List SessionAction) (loop : SessionLoop D)
    (reached : (allocatingMachine zlib (SessionLoop.start display cols rows predictionOn)).Run trace loop)
    (capturing : ∀ action ∈ trace, action ≠ .setHostBytesCapture false) :
    let machine := allocatingMachine zlib (SessionLoop.start display cols rows predictionOn)
    hostBytes loop.receiver.latestState.log.iter <:+
      machine.emitted SessionLoop.taken machine.init trace ++ loop.pendingBytes := by
  intro machine
  have held : loop.Showing ∧ loop.Captured (machine.emitted SessionLoop.taken machine.init trace) := by
    induction reached with
    | start => exact ⟨.start display cols rows predictionOn, rfl, List.nil_suffix⟩
    | @step trace loop action before fresh ih =>
      obtain ⟨showing, captured⟩ := ih fun other member => capturing other (List.mem_append_left _ member)
      have before : machine.Run trace loop := before
      rw [before.emitted_snoc action]
      exact ⟨showing.next zlib fresh, captured.next showing zlib fresh (capturing action (by simp))⟩
  obtain ⟨showing, captured⟩ := held
  rw [← showing.position]
  exact captured.whole

theorem capture_ends_with_latest_branching :
    let machine := allocatingMachine sampleZlib plainStart
    machine.emitted SessionLoop.taken machine.init (branchingActions ++ [.takeHostBytes]) = [97, 98, 97, 99, 100] ∧
      hostBytes branchingLoop.receiver.latestState.log.iter = [97, 99, 100] ∧
      hostBytes branchingLoop.receiver.latestState.log.iter <:+
        machine.emitted SessionLoop.taken machine.init branchingActions ++ branchingLoop.pendingBytes := by
  have ran : (allocatingMachine sampleZlib plainStart).Follows plainStart branchingActions := by decide +kernel
  exact ⟨by decide +kernel, by decide +kernel, capture_ends_with_latest sampleZlib (MoshDisplay.newBlank 80 24) 80 24
    true branchingActions branchingLoop (Machine.Run.start.follow ran) (by simp [branchingActions])⟩

end MoshModel
