import MoshClient.Session.SessionRuns

namespace MoshModel

open Transition

/-- A display with the sizes it was told since it was made. -/
structure WatchedDisplay (D : Type) where
  engine : D
  resizes : List (UInt64 × UInt64)
deriving DecidableEq

instance {D : Type} [MoshDisplay D] : MoshDisplay (WatchedDisplay D) where
  newBlank cols rows := { engine := MoshDisplay.newBlank cols rows, resizes := [] }
  feed display bytes := { display with engine := MoshDisplay.feed display.engine bytes }
  resize display cols rows :=
    { engine := MoshDisplay.resize display.engine cols rows, resizes := display.resizes ++ [(cols, rows)] }
  cols display := MoshDisplay.cols display.engine
  rows display := MoshDisplay.rows display.engine
  cursor display := MoshDisplay.cursor display.engine

def i32Max : Nat := 2 ^ 31 - 1

def SizedCall (call : UInt64 × UInt64) : Prop :=
  (2 ≤ call.1.toNat ∧ call.1.toNat ≤ i32Max) ∧ 2 ≤ call.2.toNat ∧ call.2.toNat ≤ i32Max

def HostEvent.Sized : HostEvent → Prop
  | .bytes _ => True
  | .resize width height => 2 ≤ width ∧ 2 ≤ height

theorem int32AsUInt64_sized {value : Int32} (large : 2 ≤ value) :
    2 ≤ (int32AsUInt64 value).toNat ∧ (int32AsUInt64 value).toNat ≤ i32Max := by
  rw [Int32.le_iff_toInt_le] at large
  have small := value.toInt_lt
  have two : (2 : Int32).toInt = 2 := rfl
  rw [two] at large
  have nonneg : 0 ≤ value.toInt64 := by
    rw [Int64.le_iff_toInt_le, Int32.toInt_toInt64]
    exact le_trans (by decide) large
  have same : (int32AsUInt64 value).toNat = value.toInt.toNat := by
    rw [int32AsUInt64, Int64.toNat_toUInt64_of_le nonneg, Int64.toNatClampNeg, Int32.toInt_toInt64]
  rw [same, i32Max]
  omega

namespace SessionLoop

variable {D : Type} [MoshDisplay D] {loop : SessionLoop (WatchedDisplay D)}

def CallsSized (loop : SessionLoop (WatchedDisplay D)) : Prop :=
  ∀ call ∈ loop.display.engine.resizes, SizedCall call

omit [MoshDisplay D] in
theorem CallsSized.of_display {after : SessionLoop (WatchedDisplay D)} (sized : loop.CallsSized)
    (same : after.display = loop.display) : after.CallsSized := by
  unfold CallsSized
  rw [same]
  exact sized

theorem feedDisplay_sized {capture : Bool} {screen : FedDisplay (WatchedDisplay D) × Bytes} {event : HostEvent}
    (sized : ∀ call ∈ screen.1.engine.resizes, SizedCall call) (fits : event.Sized) :
    ∀ call ∈ (feedDisplay capture screen event).1.engine.resizes, SizedCall call := by
  cases event with
  | bytes bytes => exact sized
  | resize width height =>
    intro call member
    rcases List.mem_append.mp member with before | last
    · exact sized call before
    · cases List.mem_singleton.mp last
      exact ⟨int32AsUInt64_sized fits.1, int32AsUInt64_sized fits.2⟩

theorem feedAll_sized {display : FedDisplay (WatchedDisplay D)} {events : List HostEvent}
    (sized : ∀ call ∈ display.engine.resizes, SizedCall call) (fit : ∀ event ∈ events, event.Sized) :
    (loop.feedAll display events).CallsSized := by
  have fold : ∀ screen : FedDisplay (WatchedDisplay D) × Bytes, (∀ call ∈ screen.1.engine.resizes, SizedCall call) →
      ∀ call ∈ (events.foldl (feedDisplay loop.shared.captureHostBytes) screen).1.engine.resizes, SizedCall call := by
    induction events with
    | nil => exact fun _ before => before
    | cons event events ih =>
      intro screen before
      obtain ⟨first, rest⟩ := List.forall_mem_cons.mp fit
      exact ih rest _ (feedDisplay_sized before first)
  exact fold (display, loop.pendingBytes) sized

/-- What the engine is moved along comes from the newest state's log, fed or replayed. -/
theorem advanceEngine_sized (sized : loop.CallsSized)
    (fit : ∀ event ∈ loop.receiver.latestState.log.node.items, event.Sized) : loop.advanceEngine.2.CallsSized := by
  unfold advanceEngine
  dsimp only
  split
  · rename_i suffix found
    split
    · exact sized
    · obtain ⟨-, -, rfl⟩ := (EventLog.suffixOver_eq_some_iff _ _ _).mp found
      apply feedAll_sized sized
      intro event member
      exact fit event (List.mem_of_mem_take (List.mem_reverse.mp member))
  · apply feedAll_sized
    · exact nofun
    · intro event member
      exact fit event (List.mem_reverse.mp member)

theorem showLatest_display (loop : SessionLoop (WatchedDisplay D)) (num : UInt64) :
    (loop.showLatest num).display = loop.advanceEngine.2.display := by
  unfold showLatest
  dsimp only
  split <;> rfl

theorem next_display {zlib : Zlib} {action : SessionAction}
    (unhandled : ∀ inst addresses now, action ≠ .handle inst addresses now)
    (unresized : ∀ width height, action ≠ .resizeDisplay width height) :
    (loop.next zlib action).display = loop.display := by
  cases action with
  | handle inst addresses now => exact absurd rfl (unhandled inst addresses now)
  | resizeDisplay width height => exact absurd rfl (unresized width height)
  | drain command now =>
    cases command with
    | input bytes =>
      dsimp only [next, drainCommand, predictInput]
      split
      · rfl
      · split
        · rfl
        · split <;> rfl
    | resize width height =>
      dsimp only [next, drainCommand]
      split <;> rfl
    | startShutdown => rfl
    | terminate => rfl
  | tick now rto sendInterval mtu => rfl
  | waitTime now rto sendInterval => rfl
  | takeHostBytes => rfl
  | setHostBytesCapture enabled => rfl
  | setPrediction enabled => rfl

theorem resizeDisplay_sized (sized : loop.CallsSized) (width height : Int32) :
    (loop.resizeDisplay width height).CallsSized := by
  unfold resizeDisplay
  split
  · rename_i large
    intro call member
    rcases List.mem_append.mp member with before | last
    · exact sized call before
    · cases List.mem_singleton.mp last
      exact ⟨int32AsUInt64_sized large.1, int32AsUInt64_sized large.2⟩
  · exact sized

/-- Whether a state is made of the instruction, should its diff decode. -/
def Takes (loop : SessionLoop D) (inst : TransportInstruction) (now : Nat) : Prop :=
  loop.receiver.CulledBy inst ∧ loop.receiver.Admits inst now ∧
    ∃ reference ∈ loop.receiver.kept inst.throwawayNum, reference.num = inst.oldNum

/-- A state is made of no instruction that resizes below two columns or two rows. -/
def sizedStep (loop : SessionLoop D) : SessionAction → Prop
  | .handle inst _ now => loop.Takes inst now → ∀ event ∈ HostStreamState.pushedEvents inst.diff, event.Sized
  | _ => True

def LogSized (state : TimestampedState HostStreamState) : Prop := ∀ event ∈ state.state.log.node.items, event.Sized

end SessionLoop

theorem HostStreamState.mem_allocated {addresses : Nat → Address} {diff : Bytes} {entry : Address × HostEvent}
    (member : entry ∈ allocated addresses diff) : entry.2 ∈ pushedEvents diff := by
  obtain ⟨numbered, inside, rfl⟩ := List.mem_map.mp member
  exact (List.mem_zipIdx' inside).2 ▸ List.getElem_mem _

namespace SessionLoop

variable {D : Type} [MoshDisplay D] {loop : SessionLoop (WatchedDisplay D)}

omit [MoshDisplay D] in
theorem process_sized (logs : ∀ s ∈ loop.receiver.received, LogSized s) {addresses : Nat → Address}
    {inst : TransportInstruction} {now : Nat} (step : loop.sizedStep (.handle inst addresses now)) :
    ∀ s ∈ (loop.receiver.processInstruction (HostStreamState.applyString addresses) inst now).2.received, LogSized s := by
  have handled := SspReceiver.processInstruction_handled (HostStreamState.applyString addresses) loop.receiver inst now
  generalize loop.receiver.processInstruction (HostStreamState.applyString addresses) inst now = outcome at *
  obtain ⟨result, after⟩ := outcome
  have kept : ∀ s ∈ loop.receiver.kept inst.throwawayNum, LogSized s :=
    fun s member => logs s (SspReceiver.mem_kept.mp member).1
  cases handled with
  | version other => exact logs
  | duplicate known => exact logs
  | unreferenced missing => exact logs
  | culledAway culled queue quench =>
    dsimp only
    rw [queue]
    exact kept
  | quenched culled queue quench =>
    dsimp only
    rw [queue]
    exact kept
  | badDiff culled admits queue quench =>
    dsimp only
    rw [queue]
    exact kept
  | @inserted reference state base after culled admits queue quench held named applied insertion =>
    subst insertion
    rw [queue] at held
    have fit := step ⟨culled, admits, reference, held, named⟩
    intro s member
    rcases (SspReceiver.mem_insertState _ _ _ _).mp member with rfl | before
    · by_cases empty : inst.diff = []
      · rw [if_pos empty] at applied
        obtain rfl := Except.ok.inj applied
        exact kept reference held
      · rw [if_neg empty] at applied
        intro event inside
        rw [HostStreamState.applyString_node applied] at inside
        rcases Chain.mem_items_extend inside with ⟨entry, added, rfl⟩ | before
        · exact fit entry.2 (HostStreamState.mem_allocated added)
        · exact kept reference held event before
    · rw [queue] at before
      exact kept s before

/-- What holds along a run: no log that is held has a small resize, and none was shown. -/
structure Safe (loop : SessionLoop (WatchedDisplay D)) : Prop where
  logs : ∀ s ∈ loop.receiver.received, LogSized s
  calls : loop.CallsSized

omit [MoshDisplay D] in
theorem Safe.start (display : D) (cols rows : Int32) (predictionOn : Bool) :
    Safe (start { engine := display, resizes := [] } cols rows predictionOn) where
  logs s member := by
    cases List.mem_singleton.mp member
    exact nofun
  calls := nofun

theorem Safe.handle (safe : Safe loop) {addresses : Nat → Address} {inst : TransportInstruction} {now : Nat}
    (step : loop.sizedStep (.handle inst addresses now)) : Safe (loop.handleInstruction addresses inst now) := by
  have cases := loop.handleInstruction_cases addresses inst now
  have logs := process_sized safe.logs step
  generalize loop.receiver.processInstruction (HostStreamState.applyString addresses) inst now = outcome at *
  generalize loop.handleInstruction addresses inst now = after at *
  cases cases with
  | kept queue older display position acked =>
    subst queue
    exact ⟨logs, safe.calls.of_display display⟩
  | @shown num hadDiff state receiver heard queue display position acked =>
    subst queue
    have calls : heard.CallsSized := safe.calls.of_display display
    obtain ⟨-, queue, -⟩ := heard.showLatest_spec num
    constructor
    · rw [queue]
      exact logs
    · exact (advanceEngine_sized calls (logs _ heard.receiver.latest_mem)).of_display (heard.showLatest_display num)

theorem Safe.next (safe : Safe loop) {zlib : Zlib} {action : SessionAction} (step : loop.sizedStep action) :
    Safe (loop.next zlib action) := by
  rcases handle_or_not action with ⟨inst, addresses, now, rfl⟩ | unhandled
  · exact safe.handle step
  · constructor
    · rw [(loop.next_frame zlib action unhandled).1]
      exact safe.logs
    · by_cases resized : ∃ width height, action = .resizeDisplay width height
      · obtain ⟨width, height, rfl⟩ := resized
        exact resizeDisplay_sized safe.calls width height
      · exact safe.calls.of_display
          (next_display unhandled fun width height same => resized ⟨width, height, same⟩)

end SessionLoop

/-- A session that makes no state of a host instruction with a small resize. -/
def sizedMachine {D : Type} [MoshDisplay D] (zlib : Zlib) (first : SessionLoop D) :
    Machine (SessionLoop D) SessionAction :=
  { sessionMachine zlib first with allowed := SessionLoop.sizedStep }

variable {D : Type} [MoshDisplay D]

theorem display_sized (zlib : Zlib) (display : D) (cols rows : Int32) (predictionOn : Bool)
    (loop : SessionLoop (WatchedDisplay D))
    (reached : (sizedMachine zlib (.start { engine := display, resizes := [] } cols rows predictionOn)).Reachable loop) :
    loop.CallsSized := by
  have safe : loop.Safe := reached.invariant (SessionLoop.Safe.start display cols rows predictionOn)
    fun _ _ _ before step => before.next step
  exact safe.calls

def watchedStart : SessionLoop (WatchedDisplay PlainScreen) :=
  .start { engine := MoshDisplay.newBlank 80 24, resizes := [] } 80 24 true

def resizing (diff : Bytes) : SessionAction :=
  .handle { protocolVersion := 2, oldNum := 0, newNum := 1, ackNum := 0, throwawayNum := 0, diff := diff, chaff := [] }
    (fun i => 100 + i) 10

/-- A session that the host resizes to 100 columns and 40 rows. -/
def widenedLoop : SessionLoop (WatchedDisplay PlainScreen) :=
  watchedStart.next sampleZlib (resizing [10, 6, 26, 4, 40, 100, 48, 40])

theorem display_sized_widened : widenedLoop.display.engine.resizes = [(100, 40)] ∧ widenedLoop.CallsSized := by
  have pushed : HostStreamState.pushedEvents [10, 6, 26, 4, 40, 100, 48, 40] = [.resize 100 40] := by decide +kernel
  have step : watchedStart.sizedStep (resizing [10, 6, 26, 4, 40, 100, 48, 40]) := by
    intro _ event member
    rw [pushed] at member
    cases List.mem_singleton.mp member
    exact ⟨by decide, by decide⟩
  have reached : (sizedMachine sampleZlib watchedStart).Reachable widenedLoop :=
    @Machine.Reachable.step _ _ _ _ (resizing [10, 6, 26, 4, 40, 100, 48, 40]) (.start _) step
  exact ⟨by decide +kernel, display_sized sampleZlib (MoshDisplay.newBlank 80 24 : PlainScreen) 80 24 true _ reached⟩

/-- A host instruction whose resize names neither of its dimensions is shown. -/
theorem empty_resize_shown : ¬ ∀ loop : SessionLoop (WatchedDisplay PlainScreen),
    (sessionMachine sampleZlib watchedStart).Reachable loop → loop.CallsSized := by
  intro always
  have reached : (sessionMachine sampleZlib watchedStart).Reachable
      (watchedStart.next sampleZlib (resizing [10, 2, 26, 0])) :=
    @Machine.Reachable.step _ _ _ _ (resizing [10, 2, 26, 0]) (.start _) trivial
  have told : (0, 0) ∈ (watchedStart.next sampleZlib (resizing [10, 2, 26, 0])).display.engine.resizes := by
    decide +kernel
  exact absurd (always _ reached (0, 0) told).1.1 (by decide)

end MoshModel
