import MoshClient.Session.RunSteps
import Mathlib.Data.List.Range
import Mathlib.Tactic.Ring

namespace MoshModel

open Transition

namespace RunLoop

variable {D F : Type}

/-- The sockets open are the newest of all that were bound. -/
def Newest (run : RunLoop D F) : Prop :=
  ∃ first, run.socks = List.range' first run.socks.length ∧ first + run.socks.length = run.portsOpened

/-- The iteration at hand began no later than the clock reads. -/
def Begun (run : RunLoop D F) : Prop :=
  match run.phase with
  | .draining now => now = run.nowMs
  | .sending now _ => now = run.nowMs
  | _ => True

structure Ported (run : RunLoop D F) : Prop where
  newest : run.Newest
  some_open : 1 ≤ run.socks.length
  capped : run.socks.length ≤ maxPortsOpen
  begun : run.Begun
  recent : run.nowMs ≤ run.clock
  chosen : run.lastPortChoice ≤ run.nowMs
  spaced : (run.portsOpened - 1) * (run.hopIntervalMs + 1) ≤ run.lastPortChoice

theorem Newest.drop {run : RunLoop D F} (newest : run.Newest) (count : Nat) (fewer : count ≤ run.socks.length) :
    Newest { run with socks := run.socks.drop count } := by
  obtain ⟨first, socks, total⟩ := newest
  have dropped := congrArg (List.drop count) socks
  rw [List.drop_range', Nat.mul_one] at dropped
  refine ⟨first + count, ?_, ?_⟩
  · dsimp only
    rw [List.length_drop]
    exact dropped
  · dsimp only
    rw [List.length_drop]
    omega

theorem Newest.push {run : RunLoop D F} (newest : run.Newest) :
    Newest { run with socks := run.socks ++ [run.portsOpened], portsOpened := run.portsOpened + 1 } := by
  obtain ⟨first, socks, total⟩ := newest
  refine ⟨first, ?_, ?_⟩
  · dsimp only
    rw [List.length_append, List.length_singleton, List.range'_concat, Nat.one_mul, total, ← socks]
  · dsimp only
    rw [List.length_append, List.length_singleton]
    omega

theorem pruneSockets_spec (run : RunLoop D F) (now : Nat) (open_ : 1 ≤ run.socks.length) :
    ∃ count < run.socks.length, run.pruneSockets now = { run with socks := run.socks.drop count } ∧
      run.socks.length - count ≤ maxPortsOpen ∧
      (maxOldSocketAgeMs < now - run.lastPortChoice → run.socks.length - count = 1) := by
  unfold pruneSockets
  by_cases old : 1 < run.socks.length ∧ maxOldSocketAgeMs < now - run.lastPortChoice
  · have enough : run.socks.length - (run.socks.length - 1) - maxPortsOpen = 0 := by
      unfold maxPortsOpen
      omega
    refine ⟨run.socks.length - 1, by omega, ?_, ?_, fun _ => by omega⟩
    · dsimp only
      rw [if_pos old, List.length_drop, enough, List.drop_zero]
    · unfold maxPortsOpen
      omega
  · refine ⟨run.socks.length - maxPortsOpen, ?_, ?_, by omega, fun aged => ?_⟩
    · unfold maxPortsOpen
      omega
    · rw [if_neg old]
    · unfold maxPortsOpen
      omega

theorem settled_ported {run : RunLoop D F} (ported : run.Ported) {now : Nat} (begun : now = run.nowMs) (bound : Bool) :
    Ported { run.settled now bound with phase := .finished } ∧
      (maxOldSocketAgeMs < now - (run.settled now bound).lastPortChoice →
        (run.settled now bound).socks.length = 1) := by
  obtain ⟨newest, open_, capped, -, recent, chosen, spaced⟩ := ported
  have hopped := run.maybeHopPort_hopped now bound
  unfold settled
  generalize run.maybeHopPort now bound = after at *
  have hop : after.Newest ∧ 1 ≤ after.socks.length ∧ after.clock = run.clock ∧ after.nowMs = run.nowMs ∧
      after.lastPortChoice ≤ now ∧ (after.portsOpened - 1) * (after.hopIntervalMs + 1) ≤ after.lastPortChoice := by
    cases hopped with
    | stayed => exact ⟨newest, open_, rfl, rfl, begun ▸ chosen, spaced⟩
    | hopped choice silent =>
      refine ⟨newest.push, by simp, rfl, rfl, Nat.le_refl _, ?_⟩
      obtain ⟨first, -, total⟩ := newest
      have one_more : run.portsOpened + 1 - 1 = run.portsOpened - 1 + 1 := by omega
      dsimp only
      rw [one_more, Nat.add_mul, Nat.one_mul]
      omega
  obtain ⟨newest, open_, clock, nowMs, chosen, spaced⟩ := hop
  obtain ⟨count, inside, pruned, few, alone⟩ := after.pruneSockets_spec now open_
  rw [pruned]
  refine ⟨⟨newest.drop count (Nat.le_of_lt inside), ?_, ?_, True.intro, ?_, ?_, spaced⟩, ?_⟩
  · dsimp only
    rw [List.length_drop]
    omega
  · dsimp only
    rw [List.length_drop]
    exact few
  · dsimp only
    rw [clock, nowMs]
    exact recent
  · dsimp only
    rw [nowMs, ← begun]
    exact chosen
  · dsimp only
    rw [List.length_drop]
    exact alone

theorem Ported.of_socks {run after : RunLoop D F} (ported : run.Ported) (socks : after.socks = run.socks)
    (portsOpened : after.portsOpened = run.portsOpened) (choice : after.lastPortChoice = run.lastPortChoice)
    (interval : after.hopIntervalMs = run.hopIntervalMs) (begun : after.Begun) (recent : after.nowMs ≤ after.clock)
    (forward : run.nowMs ≤ after.nowMs) : after.Ported := by
  obtain ⟨newest, open_, capped, -, -, chosen, spaced⟩ := ported
  constructor
  · unfold Newest
    rw [socks, portsOpened]
    exact newest
  · rw [socks]
    exact open_
  · rw [socks]
    exact capped
  · exact begun
  · exact recent
  · rw [choice]
    exact Nat.le_trans chosen forward
  · rw [portsOpened, interval, choice]
    exact spaced

theorem start_ported (code : LoopCode F) (display : D) (cols rows : Int32) (predictionOn : Bool)
    (family : SocketFamily) (hopIntervalMs : Nat) :
    (start code display cols rows predictionOn family hopIntervalMs).Ported :=
  ⟨⟨0, rfl, rfl⟩, Nat.le_refl _, Nat.le_add_left 1 9, True.intro, Nat.le_refl _, Nat.le_refl _, Nat.le_of_eq (Nat.zero_mul _)⟩

theorem nextSocket_begun {run : RunLoop D F} {older : List Nat} {drained : Nat}
    (phase : run.phase = nextSocket older drained) : run.Begun := by
  unfold Begun
  rw [phase]
  cases older <;> exact True.intro

theorem readOn_begun {run : RunLoop D F} {wait : Option Nat} {older : List Nat} {drained : Nat}
    (phase : run.phase = readOn wait older drained) : run.Begun := by
  unfold readOn at phase
  split at phase
  · exact nextSocket_begun phase
  · split at phase
    · exact nextSocket_begun phase
    · unfold Begun
      rw [phase]
      exact True.intro

theorem passOn_begun {run : RunLoop D F} {wait : Option Nat} {older : List Nat} {drained : Nat}
    (phase : run.phase = passOn wait older drained) : run.Begun := by
  unfold passOn at phase
  split at phase <;> exact nextSocket_begun phase

variable [MoshDisplay D]

theorem Ported.step {code : LoopCode F} {run after : RunLoop D F} {action : RunAction} (ported : run.Ported)
    (stepped : Stepped code run action after) : after.Ported := by
  have begun := ported.begun
  have recent := ported.recent
  unfold Begun at begun
  cases stepped with
  | woke standing forward =>
    exact ported.of_socks rfl rfl rfl rfl rfl (Nat.le_refl _) (Nat.le_trans recent forward)
  | terminated standing => exact ported.of_socks rfl rfl rfl rfl True.intro recent (Nat.le_refl _)
  | commanded standing continues => exact ported.of_socks rfl rfl rfl rfl ported.begun recent (Nat.le_refl _)
  | failed standing fatal => exact ported.of_socks rfl rfl rfl rfl True.intro recent (Nat.le_refl _)
  | ticked standing sound output =>
    rw [standing] at begun
    exact ported.of_socks rfl rfl rfl rfl begun recent (Nat.le_refl _)
  | sent standing forward later shrunk =>
    rw [standing] at begun
    refine ported.of_socks rfl rfl rfl rfl begun ?_ (Nat.le_refl _)
    exact Nat.le_trans recent (Nat.le_trans forward later)
  | @quit now bound standing _ | @shutDown now bound standing _ _ | @waited now _ bound standing _ _ _ _ =>
    rw [standing] at begun
    have settled := (settled_ported ported begun bound).1
    exact settled.of_socks rfl rfl rfl rfl True.intro settled.recent (Nat.le_refl _)
  | received standing forward later =>
    refine ported.of_socks rfl rfl rfl rfl (readOn_begun rfl) ?_ (Nat.le_refl _)
    exact Nat.le_trans recent (Nat.le_trans forward later)
  | passed standing =>
    exact ported.of_socks rfl rfl rfl rfl (passOn_begun rfl) recent (Nat.le_refl _)
  | called call => exact ported.of_socks rfl rfl rfl rfl ported.begun recent (Nat.le_refl _)

end RunLoop

def RunAction.wakes : RunAction → Bool
  | .wake _ => true
  | _ => false

def RunAction.reads : RunAction → Bool
  | .receive _ _ _ _ => true
  | _ => false

/-- The datagrams read since the last pass through the head of the loop. -/
def readsSinceWake (trace : List RunAction) : Nat :=
  (trace.reverse.takeWhile fun action => !action.wakes).countP RunAction.reads

theorem readsSinceWake_snoc (trace : List RunAction) (action : RunAction) :
    readsSinceWake (trace ++ [action]) =
      if action.wakes then 0 else readsSinceWake trace + if action.reads then 1 else 0 := by
  unfold readsSinceWake
  rw [List.reverse_append, List.reverse_singleton, List.singleton_append, List.takeWhile_cons]
  cases wakes : action.wakes
  · simp [List.countP_cons]
  · simp

namespace RunLoop

variable {D F : Type}

/-- How many datagrams an iteration has read, and how many it may read yet: one from the newest socket, up to
    the cap from the older ones, and past the cap one from each of those left. -/
def Reading (count : Nat) (run : RunLoop D F) : Prop :=
  match run.phase with
  | .waking => count ≤ oldSocketDrainCap + maxPortsOpen - 1
  | .receiving (some _) older drained => count = 0 ∧ drained = 0 ∧ older.length < maxPortsOpen
  | .receiving none older drained =>
    older ≠ [] ∧ older.length < maxPortsOpen ∧ count ≤ drained + 1 ∧
      (drained < oldSocketDrainCap ∨ drained + older.length < oldSocketDrainCap + maxPortsOpen - 1)
  | _ => count = 0

theorem nextSocket_reading {run : RunLoop D F} {older : List Nat} {drained count : Nat}
    (phase : run.phase = nextSocket older drained) (few : older.length < maxPortsOpen) (counted : count ≤ drained + 1)
    (room : drained < oldSocketDrainCap ∨ drained + older.length < oldSocketDrainCap + maxPortsOpen - 1) :
    run.Reading count := by
  unfold Reading
  rw [phase]
  simp only [oldSocketDrainCap, maxPortsOpen] at *
  cases older with
  | nil =>
    simp only [nextSocket, List.length_nil] at *
    omega
  | cons sock older => exact ⟨List.cons_ne_nil _ _, few, counted, room⟩

theorem Reading.received {run after : RunLoop D F} {wait : Option Nat} {older : List Nat} {drained count : Nat}
    (reading : run.Reading count) (standing : run.phase = .receiving wait older drained)
    (phase : after.phase = readOn wait older drained) : after.Reading (count + 1) := by
  unfold Reading at reading
  rw [standing] at reading
  unfold readOn at phase
  cases wait with
  | some wait =>
    obtain ⟨rfl, rfl, few⟩ := reading
    exact nextSocket_reading phase few (Nat.le_refl _) (.inl (by decide))
  | none =>
    obtain ⟨some_left, few, counted, room⟩ := reading
    have tail := older.length_tail
    have left := List.length_pos_iff.mpr some_left
    dsimp only at phase
    split at phase
    · refine nextSocket_reading phase (by omega) (by omega) (.inr ?_)
      simp only [oldSocketDrainCap, maxPortsOpen] at *
      omega
    · unfold Reading
      rw [phase]
      exact ⟨some_left, few, by omega, .inl (by omega)⟩

theorem Reading.passed {run after : RunLoop D F} {wait : Option Nat} {older : List Nat} {drained count : Nat}
    (reading : run.Reading count) (standing : run.phase = .receiving wait older drained)
    (phase : after.phase = passOn wait older drained) : after.Reading count := by
  unfold Reading at reading
  rw [standing] at reading
  unfold passOn at phase
  cases wait with
  | some wait =>
    obtain ⟨rfl, rfl, few⟩ := reading
    exact nextSocket_reading phase few (Nat.zero_le _) (.inl (by decide))
  | none =>
    obtain ⟨some_left, few, counted, room⟩ := reading
    have tail := older.length_tail
    exact nextSocket_reading phase (by omega) counted (by omega)

variable [MoshDisplay D]

theorem Reading.step {code : LoopCode F} {run after : RunLoop D F} {action : RunAction} {count : Nat}
    (ported : run.Ported) (reading : run.Reading count) (stepped : Stepped code run action after) :
    after.Reading (if action.wakes then 0 else count + if action.reads then 1 else 0) := by
  have reading' := reading
  unfold Reading at reading'
  cases stepped with
  | woke standing forward => exact rfl
  | terminated standing =>
    rw [standing] at reading'
    exact reading'
  | commanded standing continues => exact reading
  | failed standing fatal =>
    rw [standing] at reading'
    exact reading'
  | ticked standing sound output =>
    rw [standing] at reading'
    exact reading'
  | sent standing forward later shrunk =>
    rw [standing] at reading'
    exact reading'
  | quit standing acknowledged =>
    rw [standing] at reading'
    exact reading'
  | shutDown standing staying through =>
    rw [standing] at reading'
    exact reading'
  | @waited now wait bound standing staying going least most =>
    rw [standing] at reading'
    have begun := ported.begun
    unfold Begun at begun
    rw [standing] at begun
    have capped := (settled_ported ported begun bound).1.capped
    have some_open := (settled_ported ported begun bound).1.some_open
    refine ⟨reading', rfl, ?_⟩
    rw [List.length_reverse, List.length_dropLast]
    dsimp only at capped some_open
    omega
  | received standing forward later => exact reading.received standing rfl
  | passed standing => exact reading.passed standing rfl
  | called call => exact reading

/-- Past the sockets, a minute without a hop has left the newest alone. -/
def Rested (run : RunLoop D F) : Prop :=
  match run.phase with
  | .receiving _ _ _ => maxOldSocketAgeMs < run.nowMs - run.lastPortChoice → run.socks.length = 1
  | _ => True

omit [MoshDisplay D] in
theorem Rested.of_phase {run after : RunLoop D F} (rested : run.Rested) {wait : Option Nat} {older : List Nat}
    {drained : Nat} (standing : run.phase = .receiving wait older drained) (nowMs : after.nowMs = run.nowMs)
    (choice : after.lastPortChoice = run.lastPortChoice) (socks : after.socks = run.socks) : after.Rested := by
  unfold Rested at rested ⊢
  rw [standing] at rested
  rw [nowMs, choice, socks]
  split
  · exact rested
  · exact True.intro

theorem Rested.step {code : LoopCode F} {run after : RunLoop D F} {action : RunAction} (ported : run.Ported)
    (rested : run.Rested) (stepped : Stepped code run action after) : after.Rested := by
  cases stepped with
  | commanded standing continues =>
    unfold Rested
    dsimp only
    rw [standing]
    exact True.intro
  | @waited now wait bound standing staying going least most =>
    have begun := ported.begun
    unfold Begun at begun
    rw [standing] at begun
    obtain ⟨-, -, -, -, nowMs⟩ := run.settled_frame now bound
    intro aged
    rw [nowMs, ← begun] at aged
    exact (settled_ported ported begun bound).2 aged
  | received standing forward later => exact rested.of_phase standing rfl rfl rfl
  | passed standing => exact rested.of_phase standing rfl rfl rfl
  | called call => exact rested
  | woke _ _ | terminated _ | failed _ _ | ticked _ _ _ | sent _ _ _ _ | quit _ _ | shutDown _ _ _ =>
    exact True.intro

theorem reachable_ported {code : LoopCode F} {display : D} {cols rows : Int32} {predictionOn : Bool}
    {family : SocketFamily} {hopIntervalMs : Nat} {run : RunLoop D F}
    (reached : (runMachine code (start code display cols rows predictionOn family hopIntervalMs)).Reachable run) :
    run.Ported ∧ run.Rested ∧ run.hopIntervalMs = hopIntervalMs := by
  refine reached.invariant (motive := fun run : RunLoop D F => run.Ported ∧ run.Rested ∧
    run.hopIntervalMs = hopIntervalMs) ?_ ?_
  · exact ⟨start_ported code display cols rows predictionOn family hopIntervalMs, True.intro, rfl⟩
  · intro run action _ held allowed
    obtain ⟨ported, rested, interval⟩ := held
    have stepped := next_stepped code run action allowed
    refine ⟨ported.step stepped, rested.step ported stepped, ?_⟩
    show (run.next code action).hopIntervalMs = hopIntervalMs
    generalize run.next code action = after at stepped
    cases stepped with
    | quit _ _ | shutDown _ _ _ | waited _ _ _ _ _ =>
      exact (run.settled_frame _ _).2.2.2.1.trans interval
    | woke _ _ | terminated _ | commanded _ _ | failed _ _ | ticked _ _ _ | sent _ _ _ _ | received _ _ _
    | passed _ | called _ => exact interval

variable {code : LoopCode F} {display : D} {cols rows : Int32} {predictionOn : Bool} {family : SocketFamily}
  {hopIntervalMs : Nat}

theorem run_reading {trace : List RunAction} {run : RunLoop D F}
    (reached : (runMachine code (start code display cols rows predictionOn family hopIntervalMs)).Run trace run) :
    run.Reading (readsSinceWake trace) := by
  refine reached.invariant (motive := fun trace run => Reading (readsSinceWake trace) run) ?_ ?_
  · exact Nat.zero_le _
  · intro trace run action before reading allowed
    rw [readsSinceWake_snoc]
    exact reading.step (reachable_ported ⟨trace, before⟩).1 (next_stepped code run action allowed)

/-- A hop is the only thing that binds a socket, and takes silence on two clocks. -/
theorem hop_waits {run after : RunLoop D F} {action : RunAction} (ported : run.Ported)
    (stepped : Stepped code run action after) (bound : after.portsOpened ≠ run.portsOpened) :
    run.hopIntervalMs < run.nowMs - run.lastPortChoice ∧
      run.hopIntervalMs < run.nowMs - run.wired.loop.lastRoundtripSuccess ∧
      after.lastPortChoice = run.nowMs := by
  have begun := ported.begun
  unfold Begun at begun
  have settled : ∀ now asked, run.phase = .sending now [] →
      (run.settled now asked).portsOpened ≠ run.portsOpened →
        run.hopIntervalMs < run.nowMs - run.lastPortChoice ∧
          run.hopIntervalMs < run.nowMs - run.wired.loop.lastRoundtripSuccess ∧
          (run.settled now asked).lastPortChoice = run.nowMs := by
    intro now asked standing changed
    rw [standing] at begun
    rw [← begun]
    have hopped := run.maybeHopPort_hopped now asked
    unfold RunLoop.settled pruneSockets at changed ⊢
    generalize run.maybeHopPort now asked = moved at *
    cases hopped with
    | stayed => exact absurd rfl changed
    | hopped choice silent => exact ⟨choice, silent, rfl⟩
  cases stepped with
  | @quit now asked standing acknowledged => exact settled now asked standing bound
  | @shutDown now asked standing staying through => exact settled now asked standing bound
  | @waited now wait asked standing staying going least most => exact settled now asked standing bound
  | woke _ _ | terminated _ | commanded _ _ | failed _ _ | ticked _ _ _ | sent _ _ _ _ | received _ _ _
  | passed _ | called _ => exact absurd rfl bound

/-- The sockets open are the newest of those bound, one to ten, the newest alone a minute after the last
    hop; hops keep their interval, from each other and from the last state acknowledged. -/
theorem sockets_rotate (code : LoopCode F) (display : D) (cols rows : Int32) (predictionOn : Bool)
    (family : SocketFamily) (hopIntervalMs : Nat) (run : RunLoop D F)
    (reached : (runMachine code (start code display cols rows predictionOn family hopIntervalMs)).Reachable run) :
    (∃ first, run.socks = List.range' first run.socks.length ∧ first + run.socks.length = run.portsOpened) ∧
      1 ≤ run.socks.length ∧ run.socks.length ≤ 10 ∧
      (∀ wait older drained, run.phase = .receiving wait older drained →
        60000 < run.nowMs - run.lastPortChoice → run.socks.length = 1) ∧
      (run.portsOpened - 1) * (hopIntervalMs + 1) ≤ run.clock ∧
      ∀ action, run.allowed action → (run.next code action).portsOpened ≠ run.portsOpened →
        hopIntervalMs < run.nowMs - run.lastPortChoice ∧
          hopIntervalMs < run.nowMs - run.wired.loop.lastRoundtripSuccess ∧
          (run.next code action).lastPortChoice = run.nowMs := by
  obtain ⟨ported, rested, rfl⟩ := reachable_ported reached
  refine ⟨ported.newest, ported.some_open, ported.capped, ?_, ?_, ?_⟩
  · intro wait older drained standing aged
    unfold Rested at rested
    rw [standing] at rested
    exact rested aged
  · exact Nat.le_trans ported.spaced (Nat.le_trans ported.chosen ported.recent)
  · exact fun action allowed => hop_waits ported (next_stepped code run action allowed)

/-- However much arrives, an iteration takes 73 datagrams at most before it ticks again. -/
theorem reads_bounded (code : LoopCode F) (display : D) (cols rows : Int32) (predictionOn : Bool)
    (family : SocketFamily) (hopIntervalMs : Nat) (trace : List RunAction) (run : RunLoop D F)
    (reached : (runMachine code (start code display cols rows predictionOn family hopIntervalMs)).Run trace run) :
    readsSinceWake trace ≤ 73 := by
  have reading := run_reading reached
  unfold Reading at reading
  simp only [oldSocketDrainCap, maxPortsOpen] at reading
  split at reading
  · omega
  · omega
  · obtain ⟨some_left, few, counted, room⟩ := reading
    have left := List.length_pos_iff.mpr some_left
    omega
  · omega

/-- A silent link: the loop hops, and the old socket still gives a datagram. -/
def silentActions : List RunAction :=
  [.wake 0, .drained, .settle true, .nothing, .wake 10001, .drained, .send 10001 10001 false, .settle true,
    .nothing, .receive [1] id 10002 10002]

def silentRun : RunLoop PlainScreen Nat := silentActions.foldl (runMachine sampleCode sampleStart).next sampleStart

theorem silentRun_run : (runMachine sampleCode sampleStart).Run silentActions silentRun :=
  Machine.Run.start.follow (by decide +kernel)

theorem sockets_rotate_silent : silentRun.socks = [0, 1] ∧ silentRun.portsOpened = 2 ∧
    (silentRun.portsOpened - 1) * 10001 ≤ silentRun.clock :=
  ⟨by decide +kernel, by decide +kernel,
    (sockets_rotate sampleCode (MoshDisplay.newBlank 80 24) 80 24 true .v4 10000 silentRun
      ⟨_, silentRun_run⟩).2.2.2.2.1⟩

/-- One more hop, with nothing to read on any socket. -/
def silentIteration (hops : Nat) : List RunAction :=
  let now := 10001 * hops
  [.wake now, .drained, .send now now false, .settle true] ++ .replicate (hops + 1) .nothing

/-- Nine hops on a silent link, and then a burst on all ten sockets. -/
def burstActions : List RunAction :=
  [.wake 0, .drained, .settle true, .nothing] ++ (List.range 8).flatMap (fun hops => silentIteration (hops + 1)) ++
    [.wake 90009, .drained, .send 90009 90009 false, .settle true] ++ .replicate 73 (.receive [1] id 90009 90009)

def burstRun : RunLoop PlainScreen Nat := burstActions.foldl (runMachine sampleCode sampleStart).next sampleStart

theorem burstRun_run : (runMachine sampleCode sampleStart).Run burstActions burstRun :=
  Machine.Run.start.follow (by decide +kernel)

theorem reads_bounded_burst : burstRun.socks.length = 10 ∧ burstRun.phase = .waking ∧
    readsSinceWake burstActions = 73 ∧ readsSinceWake burstActions ≤ 73 :=
  ⟨by decide +kernel, by decide +kernel, by decide +kernel, reads_bounded sampleCode (MoshDisplay.newBlank 80 24) 80 24
    true .v4 10000 burstActions burstRun burstRun_run⟩

end RunLoop

end MoshModel
