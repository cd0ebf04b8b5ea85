import MoshClient.Session.Loop
import MoshClient.Fragment.Integrity

namespace MoshModel

open Transition

namespace SessionLoop

variable {D : Type} [MoshDisplay D]

theorem feedAll_fed (loop : SessionLoop D) (display : FedDisplay D) (events : List HostEvent) :
    (loop.feedAll display events).display.fed = display.fed ++ events := by
  have fold : ∀ (screen : FedDisplay D × Bytes),
      (events.foldl (feedDisplay loop.shared.captureHostBytes) screen).1.fed = screen.1.fed ++ events := by
    induction events with
    | nil => simp
    | cons event events ih =>
      intro screen
      have one : (feedDisplay loop.shared.captureHostBytes screen event).1.fed = screen.1.fed ++ [event] := by
        cases event <;> rfl
      rw [List.foldl_cons, ih, one, List.append_assoc, List.singleton_append]
  exact fold (display, loop.pendingBytes)

/-- What the display was fed and where its engine is, once moved along the newest state's log: not at
    all, by a suffix, or by a rebuild. -/
inductive Advanced (loop : SessionLoop D) : List HostEvent → EventLog → Prop
  | there (found : loop.receiver.latestState.log.suffixOver loop.engineAt = some []) :
      Advanced loop loop.display.fed loop.engineAt
  | fed {suffix : List HostEvent}
      (found : loop.receiver.latestState.log.suffixOver loop.engineAt = some suffix) :
      Advanced loop (loop.display.fed ++ suffix) loop.receiver.latestState.log
  | rebuilt : Advanced loop loop.receiver.latestState.log.iter loop.receiver.latestState.log

theorem advanceEngine_spec (loop : SessionLoop D) :
    let advanced := loop.advanceEngine.2
    Advanced loop advanced.display.fed advanced.engineAt ∧ advanced.receiver = loop.receiver ∧
      advanced.sender = loop.sender ∧ advanced.fragmenter = loop.fragmenter ∧
      advanced.prediction = loop.prediction := by
  intro advanced
  simp only [advanced, advanceEngine]
  cases found : loop.receiver.latestState.log.suffixOver loop.engineAt with
  | none =>
    dsimp only
    rw [feedAll_fed, List.nil_append]
    exact ⟨.rebuilt, rfl, rfl, rfl, rfl⟩
  | some suffix =>
    dsimp only
    by_cases empty : suffix.isEmpty = true
    · rw [if_pos empty]
      rw [List.isEmpty_iff.mp empty] at found
      exact ⟨.there found, rfl, rfl, rfl, rfl⟩
    · rw [if_neg empty]
      dsimp only
      rw [feedAll_fed]
      exact ⟨.fed found, rfl, rfl, rfl, rfl⟩

theorem showLatest_spec (loop : SessionLoop D) (num : UInt64) :
    let shown := loop.showLatest num
    Advanced loop shown.display.fed shown.engineAt ∧ shown.receiver = loop.receiver ∧
      shown.sender = loop.sender ∧ shown.fragmenter = loop.fragmenter ∧
      ∃ echoAck, shown.prediction = (loop.retirePredictions echoAck).2.prediction := by
  intro shown
  have spec := loop.advanceEngine_spec
  dsimp only [shown, showLatest]
  generalize loop.advanceEngine = advance at *
  obtain ⟨fed, advanced⟩ := advance
  dsimp only at spec ⊢
  obtain ⟨moved, receiver, sender, fragmenter, prediction⟩ := spec
  have retired : (advanced.retirePredictions advanced.receiver.latestState.echoAck).2.prediction =
      (loop.retirePredictions advanced.receiver.latestState.echoAck).2.prediction := by
    unfold retirePredictions
    rw [prediction]
  split <;> exact ⟨moved, receiver, sender, fragmenter, _, retired⟩

/-- What showing a state leaves alone besides: what was acked, when, and a failure on record. -/
theorem showLatest_frame (loop : SessionLoop D) (num : UInt64) :
    let shown := loop.showLatest num
    shown.fatal = loop.fatal ∧ shown.shared.userAcked = loop.shared.userAcked ∧
      shown.lastRoundtripSuccess = loop.lastRoundtripSuccess := by
  intro shown
  have kept : loop.advanceEngine.2.fatal = loop.fatal ∧
      loop.advanceEngine.2.shared.userAcked = loop.shared.userAcked ∧
      loop.advanceEngine.2.lastRoundtripSuccess = loop.lastRoundtripSuccess := by
    unfold advanceEngine
    dsimp only
    split
    · split <;> exact ⟨rfl, rfl, rfl⟩
    · exact ⟨rfl, rfl, rfl⟩
  dsimp only [shown, showLatest]
  generalize loop.advanceEngine = advance at *
  obtain ⟨fed, advanced⟩ := advance
  dsimp only at kept ⊢
  split <;> exact kept

/-- What a received instruction leaves before its state is shown: an ack may take queued states. -/
structure Heard (loop heard : SessionLoop D) : Prop where
  queue : heard.sender.queue = loop.sender.queue ∨
    ∃ ack, heard.sender.queue = loop.sender.queue.processAcknowledgmentThrough ack
  current : heard.sender.currentState = loop.sender.currentState
  shutdown : heard.sender.shutdownInProgress = loop.sender.shutdownInProgress
  fragmenter : heard.fragmenter = loop.fragmenter
  prediction : heard.prediction = loop.prediction

inductive Handled (loop : SessionLoop D) :
    Except SspError (RecvOutcome HostStreamState) × SspReceiver HostStreamState → SessionLoop D → Prop
  | kept {result : Except SspError (RecvOutcome HostStreamState)} {receiver : SspReceiver HostStreamState}
      {after : SessionLoop D} (queue : after.receiver = receiver)
      (older : ∀ num hadDiff state, result ≠ .ok (.latest num hadDiff state))
      (display : after.display = loop.display) (position : after.engineAt = loop.engineAt)
      (acked : after.sender.ackNum = loop.sender.ackNum) (told : Heard loop after) :
      Handled loop (result, receiver) after
  | shown {num : UInt64} {hadDiff : Bool} {state : HostStreamState} {receiver : SspReceiver HostStreamState}
      {heard : SessionLoop D} (queue : heard.receiver = receiver)
      (display : heard.display = loop.display) (position : heard.engineAt = loop.engineAt)
      (acked : heard.sender.ackNum = num) (told : Heard loop heard) :
      Handled loop (.ok (.latest num hadDiff state), receiver) (heard.showLatest num)

theorem applyRecvOutcome_latest {Sent Recv : Type} (sender : SspSender Sent) (num : UInt64) (hadDiff : Bool)
    (state : Recv) (now : Nat) :
    let told := applyRecvOutcome sender (.latest num hadDiff state) now
    told.ackNum = num ∧ told.queue = sender.queue ∧ told.currentState = sender.currentState ∧
      told.shutdownInProgress = sender.shutdownInProgress := by
  cases hadDiff <;> exact ⟨rfl, rfl, rfl, rfl⟩

theorem handleInstruction_cases (loop : SessionLoop D) (addresses : Nat → Address)
    (inst : TransportInstruction) (now : Nat) :
    Handled loop (loop.receiver.processInstruction (HostStreamState.applyString addresses) inst now)
      (loop.handleInstruction addresses inst now) := by
  unfold handleInstruction
  by_cases version : inst.protocolVersion ≠ moshProtocolVersion
  · have refused : loop.receiver.processInstruction (HostStreamState.applyString addresses) inst now =
        (.error (.protocolVersion inst.protocolVersion), loop.receiver) := by
      rw [SspReceiver.processInstruction, if_pos version]
    rw [if_pos version, refused]
    exact .kept rfl nofun rfl rfl rfl ⟨.inl rfl, rfl, rfl, rfl, rfl⟩
  · have acked : Heard loop (loop.acknowledge inst.ackNum) := ⟨.inr ⟨_, rfl⟩, rfl, rfl, rfl, rfl⟩
    rw [if_neg version]
    dsimp only
    rw [show (loop.acknowledge inst.ackNum).receiver = loop.receiver from rfl]
    generalize loop.receiver.processInstruction (HostStreamState.applyString addresses) inst now = outcome
    obtain ⟨result, receiver⟩ := outcome
    have received : Heard loop { loop.acknowledge inst.ackNum with receiver := receiver } :=
      ⟨acked.queue, acked.current, acked.shutdown, acked.fragmenter, acked.prediction⟩
    cases result with
    | error e => exact .kept rfl nofun rfl rfl rfl ⟨acked.queue, rfl, rfl, rfl, rfl⟩
    | ok outcome =>
      cases outcome with
      | latest num hadDiff state =>
        obtain ⟨number, queue, current, shutdown⟩ :=
          applyRecvOutcome_latest (loop.acknowledge inst.ackNum).sender num hadDiff state now
        exact .shown rfl rfl rfl number ⟨.inr ⟨_, queue⟩, current, shutdown, rfl, rfl⟩
      | outOfOrder num hadDiff => exact .kept rfl nofun rfl rfl rfl received
      | duplicate => exact .kept rfl nofun rfl rfl rfl received
      | noReference => exact .kept rfl nofun rfl rfl rfl received
      | quenched => exact .kept rfl nofun rfl rfl rfl received

theorem next_frame (zlib : Zlib) (loop : SessionLoop D) (action : SessionAction)
    (unhandled : ∀ inst addresses now, action ≠ .handle inst addresses now) :
    let after := loop.next zlib action
    after.receiver = loop.receiver ∧ after.engineAt = loop.engineAt ∧
      after.display.fed = loop.display.fed ∧ after.sender.ackNum = loop.sender.ackNum := by
  intro after
  cases action with
  | handle inst addresses now => exact absurd rfl (unhandled inst addresses now)
  | drain command now =>
    cases command with
    | input bytes =>
      dsimp only [after, next, drainCommand, predictInput]
      split
      · exact ⟨rfl, rfl, rfl, rfl⟩
      · split
        · exact ⟨rfl, rfl, rfl, rfl⟩
        · split <;> exact ⟨rfl, rfl, rfl, rfl⟩
    | resize width height =>
      dsimp only [after, next, drainCommand]
      split <;> exact ⟨rfl, rfl, rfl, rfl⟩
    | startShutdown =>
      dsimp only [after, next, drainCommand, SspSender.startShutdown]
      split <;> exact ⟨rfl, rfl, rfl, rfl⟩
    | terminate => exact ⟨rfl, rfl, rfl, rfl⟩
  | tick now rto sendInterval mtu =>
    obtain ⟨-, -, acked, -⟩ := loop.sender.tick_due zlib now rto sendInterval mtu loop.fragmenter
    exact ⟨rfl, rfl, rfl, acked.trans (loop.sender.prepared_fields now rto).2⟩
  | waitTime now rto sendInterval =>
    exact ⟨rfl, rfl, rfl, (loop.sender.computeTimers_spec now rto sendInterval).2.2.2⟩
  | resizeDisplay width height =>
    dsimp only [after, next, resizeDisplay]
    split <;> exact ⟨rfl, rfl, rfl, rfl⟩
  | takeHostBytes => exact ⟨rfl, rfl, rfl, rfl⟩
  | setHostBytesCapture enabled => exact ⟨rfl, rfl, rfl, rfl⟩
  | setPrediction enabled => exact ⟨rfl, rfl, rfl, rfl⟩

structure Linked (loop : SessionLoop D) : Prop where
  ascending : loop.receiver.Ascending
  acked : loop.sender.ackNum = loop.receiver.latest.num

omit [MoshDisplay D] in
theorem Linked.start (display : D) (cols rows : Int32) (predictionOn : Bool) :
    Linked (start display cols rows predictionOn) :=
  ⟨SspReceiver.new_ascending _ _, rfl⟩

theorem Linked.handle {loop : SessionLoop D} (linked : Linked loop) (addresses : Nat → Address)
    (inst : TransportInstruction) (now : Nat) : Linked (loop.handleInstruction addresses inst now) := by
  have cases := loop.handleInstruction_cases addresses inst now
  obtain ⟨ascending, newest⟩ := SspReceiver.processInstruction_latest
    (HostStreamState.applyString addresses) linked.ascending inst now
  generalize loop.receiver.processInstruction (HostStreamState.applyString addresses) inst now = outcome at *
  generalize loop.handleInstruction addresses inst now = after at *
  cases cases with
  | kept queue older display position acked =>
    subst queue
    obtain ⟨num, hadDiff, state, isLatest, -⟩ | ⟨-, same⟩ := newest
    · exact absurd isLatest (older num hadDiff state)
    · exact ⟨ascending, acked.trans (linked.acked.trans (congrArg _ same.symm))⟩
  | @shown num hadDiff state receiver heard queue display position acked =>
    subst queue
    obtain ⟨-, queue, sender, -⟩ := heard.showLatest_spec num
    obtain ⟨_, _, _, isLatest, -, last⟩ | ⟨older, -⟩ := newest
    · cases isLatest
      refine ⟨?_, ?_⟩
      · rw [queue]
        exact ascending
      · rw [queue, sender, acked]
        exact (congrArg TimestampedState.num last).symm
    · exact absurd rfl (older num hadDiff state)

theorem handle_or_not (action : SessionAction) :
    (∃ inst addresses now, action = .handle inst addresses now) ∨
      ∀ inst addresses now, action ≠ .handle inst addresses now := by
  cases action with
  | handle inst addresses now => exact .inl ⟨inst, addresses, now, rfl⟩
  | _ => exact .inr nofun

theorem Linked.next {loop : SessionLoop D} (linked : Linked loop) (zlib : Zlib) (action : SessionAction) :
    Linked (loop.next zlib action) := by
  rcases handle_or_not action with ⟨inst, addresses, now, rfl⟩ | unhandled
  · exact linked.handle addresses inst now
  · obtain ⟨receiver, -, -, acked⟩ := loop.next_frame zlib action unhandled
    refine ⟨?_, ?_⟩
    · rw [receiver]
      exact linked.ascending
    · rw [receiver, acked]
      exact linked.acked

theorem reachable_linked {zlib : Zlib} {display : D} {cols rows : Int32} {predictionOn : Bool}
    {loop : SessionLoop D}
    (reached : (sessionMachine zlib (start display cols rows predictionOn)).Reachable loop) : Linked loop :=
  reached.invariant (Linked.start display cols rows predictionOn) fun _ action _ linked _ =>
    linked.next zlib action

end SessionLoop

variable {D : Type} [MoshDisplay D]

/-- The receiver's queue under arbitrary input, and the ack that the session derives from it. -/
theorem receiver_queue_invariant (zlib : Zlib) (display : D) (cols rows : Int32) (predictionOn : Bool) :
    (∀ {S : Type} (applyString : S → Bytes → Except WireError S) (initial : S) (start : Nat)
        (arrivals : List TimedInstruction) (arrival : TimedInstruction),
      let receiver := (SspReceiver.processAll applyString (SspReceiver.new initial start) arrivals).1
      let outcome := receiver.processInstruction applyString arrival.inst arrival.now
      let after := outcome.2
      after.received ≠ [] ∧
        after.received.Pairwise (fun earlier later => earlier.num < later.num) ∧
        receiver.latest.num ≤ after.latest.num ∧
        (after.latest.num ≠ receiver.latest.num ↔
          ∃ num hadDiff state, outcome.1 = .ok (.latest num hadDiff state)) ∧
        (∀ num hadDiff state, outcome.1 = .ok (.latest num hadDiff state) →
          after.latest = { timestamp := arrival.now, num := num, state := state }) ∧
        ((∀ num hadDiff state, outcome.1 ≠ .ok (.latest num hadDiff state)) →
          after.latest = receiver.latest) ∧
        ∀ throwawayNum, (receiver.processThrowawayUntil throwawayNum).2.latest = receiver.latest) ∧
      ∀ loop, (sessionMachine zlib (SessionLoop.start display cols rows predictionOn)).Reachable loop →
        loop.sender.ackNum = loop.receiver.latest.num := by
  refine ⟨?_, fun loop reached => (SessionLoop.reachable_linked reached).acked⟩
  intro S applyString initial start arrivals arrival receiver outcome after
  have ordered : receiver.Ascending := SspReceiver.processAll_ascending applyString initial start arrivals
  obtain ⟨ascending, newest⟩ := SspReceiver.processInstruction_latest applyString ordered arrival.inst arrival.now
  have culled : ∀ throwawayNum, (receiver.processThrowawayUntil throwawayNum).2.latest = receiver.latest := by
    intro throwawayNum
    obtain ⟨-, queue⟩ | ⟨-, same, -⟩ := receiver.processThrowawayUntil_spec throwawayNum
    · exact SspReceiver.kept_latest ordered queue
    · rw [same]
  refine ⟨after.nonempty, ascending, ?_⟩
  obtain ⟨num, hadDiff, state, isLatest, newer, last⟩ | ⟨older, same⟩ := newest
  · have number : after.latest.num = num := congrArg TimestampedState.num last
    refine ⟨?_, ?_, ?_, fun older => absurd isLatest (older num hadDiff state), culled⟩
    · rw [number]
      exact UInt64.le_of_lt newer
    · refine ⟨fun _ => ⟨num, hadDiff, state, isLatest⟩, fun _ unchanged => ?_⟩
      rw [← number, unchanged] at newer
      exact UInt64.lt_irrefl _ newer
    · intro other otherDiff otherState isOther
      obtain ⟨rfl, -, rfl⟩ : num = other ∧ hadDiff = otherDiff ∧ state = otherState := by
        simpa using isLatest.symm.trans isOther
      exact last
  · refine ⟨?_, ?_, ?_, fun _ => same, culled⟩
    · exact UInt64.le_of_eq (congrArg TimestampedState.num same.symm)
    · refine ⟨fun changed => absurd (congrArg TimestampedState.num same) changed, ?_⟩
      rintro ⟨num, hadDiff, state, isLatest⟩
      exact absurd isLatest (older num hadDiff state)
    · intro num hadDiff state isLatest
      exact absurd isLatest (older num hadDiff state)

/-- A display that only collects what it is fed. -/
structure PlainScreen where
  text : Bytes
  cols : UInt64
  rows : UInt64
deriving DecidableEq

instance : MoshDisplay PlainScreen where
  newBlank cols rows := { text := [], cols := cols, rows := rows }
  feed screen bytes := { screen with text := screen.text ++ bytes }
  resize screen cols rows := { screen with cols := cols, rows := rows }
  cols screen := screen.cols
  rows screen := screen.rows
  cursor _ := (0, 0, true)

def plainStart : SessionLoop PlainScreen := .start (MoshDisplay.newBlank 80 24) 80 24 true

def painting (old new throwaway : UInt64) (byte : UInt8) : TransportInstruction :=
  { protocolVersion := 2, oldNum := old, newNum := new, ackNum := 0, throwawayNum := throwaway,
    diff := [10, 5, 18, 3, 34, 1, byte], chaff := [] }

/-- A skip ahead, a tick that acks it, an insert behind it, and a shutdown notice with a hostile throwaway
    before it. -/
def skippingActions : List SessionAction :=
  [.handle (painting 0 2 0 97) (fun i => 100 + i) 10, .tick 300 1000 250 500,
    .handle (painting 0 1 0 98) (fun i => 110 + i) 310, .handle (painting 2 9 99 99) (fun i => 120 + i) 320,
    .handle (painting 2 shutdownNum 2 100) (fun i => 130 + i) 330]

def skippingLoop : SessionLoop PlainScreen :=
  skippingActions.foldl (sessionMachine sampleZlib plainStart).next plainStart

theorem receiver_queue_invariant_skipping : skippingLoop.receiver.latest.num = shutdownNum ∧
    skippingLoop.sender.ackNum = skippingLoop.receiver.latest.num := by
  refine ⟨by decide +kernel, ?_⟩
  have follows : (sessionMachine sampleZlib plainStart).Follows plainStart skippingActions := by
    simp [skippingActions, Machine.Follows, sessionMachine]
  exact (receiver_queue_invariant sampleZlib (MoshDisplay.newBlank 80 24 : PlainScreen) 80 24 true).2
    skippingLoop ⟨_, Machine.Run.start.follow follows⟩

end MoshModel
