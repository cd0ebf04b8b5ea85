import MoshClient.Session.Ending

namespace MoshModel

open Transition

namespace RunLoop

variable {D F : Type}

/-- The instruction that a tick frames with the shutdown in progress. -/
def closing (code : LoopCode F) (run : RunLoop D F) (action : RunAction) : List Sending :=
  match action, run.phase, run.wired.loop.fatal with
  | .drained, .draining now, none =>
    if run.wired.loop.sender.shutdownInProgress then
      (run.wired.loop.sender.tick code.zlib now (run.rto code) (run.sendInterval code) (fragmentMtu run.mtu)
        run.wired.loop.fragmenter).sending.toList
    else []
  | _, _, _ => []

/-- The last iteration may send once more than the tries allow to wait for. -/
def triesLeft : Phase → Nat
  | .sending _ _ | .finished => shutdownRetries
  | _ => shutdownRetries - 1

/-- The loop does not go to its sockets with its shutdown through. -/
def waits : Phase → Prop
  | .waking | .receiving _ _ _ => True
  | _ => False

structure Closed (count : Nat) (run : RunLoop D F) : Prop where
  tried : count ≤ run.wired.loop.sender.shutdownTries
  started : count ≠ 0 → run.wired.loop.sender.shutdownInProgress = true
  bounded : count ≤ triesLeft run.phase
  began : run.wired.loop.sender.shutdownInProgress = true →
    ∃ began ≤ run.nowMs, run.wired.loop.sender.shutdownStart = some began
  waiting : waits run.phase → run.wired.loop.sender.shutdownAckTimedOut run.nowMs = false

theorem Closed.of_fields {run after : RunLoop D F} {count : Nat} (closed : run.Closed count)
    (shutdown : after.wired.loop.shutdownFields = run.wired.loop.shutdownFields)
    (bounded : triesLeft run.phase ≤ triesLeft after.phase) (forward : run.nowMs ≤ after.nowMs)
    (waiting : waits after.phase → waits run.phase ∧ after.nowMs = run.nowMs) : after.Closed count := by
  simp only [SessionLoop.shutdownFields, Prod.mk.injEq] at shutdown
  obtain ⟨start, shutdown, tries⟩ := shutdown
  constructor
  · rw [tries]
    exact closed.tried
  · rw [shutdown]
    exact closed.started
  · exact Nat.le_trans closed.bounded bounded
  · rw [shutdown, start]
    intro started
    obtain ⟨began, past, known⟩ := closed.began started
    exact ⟨began, Nat.le_trans past forward, known⟩
  · intro waits
    obtain ⟨waited, same⟩ := waiting waits
    rw [SspSender.shutdownAckTimedOut, shutdown, tries, start, same]
    exact closed.waiting waited

theorem triesLeft_waits {phase : Phase} (waiting : waits phase) : triesLeft phase = 15 := by
  cases phase <;> first | rfl | exact waiting.elim

theorem nextSocket_waits (older : List Nat) (drained : Nat) : waits (nextSocket older drained) := by
  cases older <;> exact True.intro

theorem readOn_waits (wait : Option Nat) (older : List Nat) (drained : Nat) : waits (readOn wait older drained) := by
  unfold readOn
  split
  · exact nextSocket_waits _ _
  · split
    · exact nextSocket_waits _ _
    · exact True.intro

theorem passOn_waits (wait : Option Nat) (older : List Nat) (drained : Nat) : waits (passOn wait older drained) := by
  unfold passOn
  split <;> exact nextSocket_waits _ _

theorem closing_other (code : LoopCode F) (run : RunLoop D F) {action : RunAction} (other : action ≠ .drained) :
    run.closing code action = [] := by
  unfold closing
  split
  · exact absurd rfl other
  · rfl

theorem closing_drained (code : LoopCode F) {run : RunLoop D F} {now : Nat} (draining : run.phase = .draining now)
    (sound : run.wired.loop.fatal = none) :
    run.closing code .drained = if run.wired.loop.sender.shutdownInProgress then
      (run.wired.loop.sender.tick code.zlib now (run.rto code) (run.sendInterval code) (fragmentMtu run.mtu)
        run.wired.loop.fragmenter).sending.toList else [] := by
  unfold closing
  rw [draining, sound]

variable [MoshDisplay D]

theorem acted_shutdown {code : WireCode F} {wired : WiredLoop D F} {action : WireAction} {loop : SessionLoop D}
    (linked : wired.loop.Linked) (outer : ∀ inner, action ≠ .inner inner)
    (acted : WiredLoop.Acted code wired action loop) : loop.shutdownFields = wired.loop.shutdownFields := by
  cases acted with
  | dropped => rfl
  | handled carried completed => exact (SessionLoop.handleInstruction_announced linked _ _ _).2.1
  | sent exhausted => rfl
  | inner action => exact absurd rfl (outer action)

omit [MoshDisplay D] in
theorem Closed.start_shutdown {run after : RunLoop D F} {count now : Nat} (closed : run.Closed count)
    (draining : run.phase = .draining now) (begun : now = run.nowMs)
    (started : after.wired.loop.sender = run.wired.loop.sender.startShutdown now)
    (phase : after.phase = run.phase) (nowMs : after.nowMs = run.nowMs) : after.Closed count := by
  have idle : ¬waits after.phase := by
    rw [phase, draining]
    exact fun waits => waits
  unfold SspSender.startShutdown at started
  by_cases already : run.wired.loop.sender.shutdownInProgress = true
  · rw [if_pos already] at started
    refine closed.of_fields ?_ (Nat.le_of_eq (by rw [phase])) (Nat.le_of_eq nowMs.symm) (fun waits => absurd waits idle)
    unfold SessionLoop.shutdownFields
    rw [started]
  · rw [if_neg already] at started
    have none_yet : count = 0 := by
      by_contra some_yet
      exact already (closed.started some_yet)
    refine ⟨by omega, fun some_yet => absurd none_yet some_yet, by omega, ?_, fun waits => absurd waits idle⟩
    rw [started, nowMs, ← begun]
    exact fun _ => ⟨now, Nat.le_refl _, rfl⟩

omit [MoshDisplay D] in
theorem shutdownAckTimedOut_false {S : Type} {sender : SspSender S} {now : Nat}
    (staying : sender.shutdownAckTimedOut now = false) (started : sender.shutdownInProgress = true) :
    sender.shutdownTries < 16 ∧ ∀ began ∈ sender.shutdownStart, now - began < 10000 := by
  unfold SspSender.shutdownAckTimedOut at staying
  rw [if_pos started] at staying
  by_cases spent : shutdownRetries ≤ sender.shutdownTries
  · rw [if_pos spent] at staying
    cases staying
  · rw [if_neg spent] at staying
    refine ⟨Nat.lt_of_not_le spent, fun began known => ?_⟩
    rw [known] at staying
    exact Nat.lt_of_not_le (of_decide_eq_false staying)

theorem Closed.ticked {code : LoopCode F} {run : RunLoop D F} {count now : Nat} {out : List Fragment}
    (closed : run.Closed count) (draining : run.phase = .draining now) (sound : run.wired.loop.fatal = none) :
    Closed (count + (run.closing code .drained).length) { run with
      wired := run.wired.next code.toWireCode
        (.inner (.tick now (run.rto code) (run.sendInterval code) (fragmentMtu run.mtu)))
      rtoMs := run.rto code
      phase := .sending now out } := by
  have tried := run.wired.loop.sender.tick_tried code.zlib now (run.rto code) (run.sendInterval code)
    (fragmentMtu run.mtu) run.wired.loop.fragmenter
  have few := closed.bounded
  rw [closing_drained code draining sound]
  rw [draining] at few
  generalize tickedEq : run.wired.loop.sender.tick code.zlib now (run.rto code) (run.sendInterval code)
    (fragmentMtu run.mtu) run.wired.loop.fragmenter = ticked at tried ⊢
  have after : (run.wired.next code.toWireCode
      (.inner (.tick now (run.rto code) (run.sendInterval code) (fragmentMtu run.mtu)))).loop.sender =
      ticked.sender := by
    rw [← tickedEq]
    rfl
  obtain ⟨start, shutdown, tries, closes⟩ := tried
  refine ⟨?_, ?_, ?_, ?_, fun waits => waits.elim⟩
  · dsimp only
    rw [after, tries]
    by_cases started : run.wired.loop.sender.shutdownInProgress = true
    · rw [if_pos started, List.countP_eq_length.mpr fun sending sent => closes started sending (Option.mem_toList.mp sent)]
      exact Nat.add_le_add_right closed.tried _
    · rw [if_neg started]
      exact Nat.le_trans closed.tried (Nat.le_add_right _ _)
  · dsimp only
    rw [after, shutdown]
    by_cases started : run.wired.loop.sender.shutdownInProgress = true
    · exact fun _ => started
    · rw [if_neg started]
      exact closed.started
  · have single : ticked.sending.toList.length ≤ 1 := by cases ticked.sending <;> simp
    simp only [triesLeft, shutdownRetries] at few ⊢
    split
    · omega
    · exact Nat.le_trans few (by decide)
  · dsimp only
    rw [after, shutdown, start]
    exact closed.began

omit [MoshDisplay D] in
theorem Closed.waited {run after : RunLoop D F} {count now : Nat} (closed : run.Closed count)
    (going : ¬ShutDown run.wired.loop.sender now) (begun : now = run.nowMs) (nowMs : after.nowMs = run.nowMs)
    (waiting : waits after.phase) (shutdown : after.wired.loop.shutdownFields = run.wired.loop.shutdownFields) :
    after.Closed count := by
  simp only [SessionLoop.shutdownFields, Prod.mk.injEq] at shutdown
  obtain ⟨start, shutdown, tries⟩ := shutdown
  have staying : run.wired.loop.sender.shutdownAckTimedOut now = false := by
    cases started : run.wired.loop.sender.shutdownInProgress with
    | true => exact Bool.eq_false_iff.mpr fun timedOut => going ⟨started, .inr timedOut⟩
    | false =>
      unfold SspSender.shutdownAckTimedOut
      rw [started]
      rfl
  constructor
  · rw [tries]
    exact closed.tried
  · rw [shutdown]
    exact closed.started
  · rw [triesLeft_waits waiting]
    by_cases some_yet : count = 0
    · omega
    · have spent := (shutdownAckTimedOut_false staying (closed.started some_yet)).1
      have tried := closed.tried
      omega
  · rw [shutdown, start, nowMs]
    exact closed.began
  · intro _
    rw [SspSender.shutdownAckTimedOut, shutdown, tries, start, nowMs, ← begun]
    exact staying

theorem Closed.step {code : LoopCode F} {run after : RunLoop D F} {action : RunAction} {count : Nat}
    (closed : run.Closed count) (ported : run.Ported) (linked : run.wired.loop.Linked)
    (stepped : Stepped code run action after) : after.Closed (count + (run.closing code action).length) := by
  have begun := ported.begun
  unfold Begun at begun
  cases stepped with
  | woke waking forward =>
    rw [closing_other code run (fun same => by cases same)]
    refine closed.of_fields rfl ?_ (Nat.le_trans ported.recent forward) (fun waits => waits.elim)
    rw [waking]
    exact Nat.le_refl _
  | terminated draining =>
    rw [closing_other code run (fun same => by cases same)]
    refine closed.of_fields rfl ?_ (Nat.le_refl _) (fun waits => waits.elim)
    rw [draining]
    exact (by decide : 15 ≤ 16)
  | @commanded now command draining continues =>
    rw [closing_other code run (fun same => by cases same)]
    rw [draining] at begun
    by_cases start : command = .startShutdown
    · subst start
      exact closed.start_shutdown draining begun rfl rfl rfl
    · refine closed.of_fields (run.wired.loop.next_quiet code.zlib (drain_quiet now start)).2.1 (Nat.le_refl _)
        (Nat.le_refl _) (fun waits => ?_)
      dsimp only at waits
      rw [draining] at waits
      exact waits.elim
  | failed draining fatal =>
    have none_framed : run.closing code .drained = [] := by
      unfold closing
      rw [draining, fatal]
    rw [none_framed]
    refine closed.of_fields rfl ?_ (Nat.le_refl _) (fun waits => waits.elim)
    rw [draining]
    exact (by decide : 15 ≤ 16)
  | ticked draining sound output => exact closed.ticked draining sound
  | @sent top now stamped mtu oversize fragment out sending forward later shrunk =>
    rw [closing_other code run (fun same => by cases same)]
    refine closed.of_fields ?_ ?_ (Nat.le_refl _) (fun waits => waits.elim)
    · exact acted_shutdown linked (fun inner same => by cases same)
        (run.wired.next_acted code.toWireCode (.send fragment now stamped))
    · rw [sending]
      exact Nat.le_refl _
  | @quit now bound sending _ | @shutDown now bound sending _ _ =>
    rw [closing_other code run (fun same => by cases same)]
    obtain ⟨wired, -, -, -, nowMs⟩ := run.settled_frame now bound
    refine closed.of_fields ?_ ?_ (Nat.le_of_eq nowMs.symm) (fun waits => waits.elim)
    · rw [← wired]
      rfl
    · rw [sending]
      exact Nat.le_refl _
  | @waited now wait bound sending talking going least most =>
    rw [closing_other code run (fun same => by cases same)]
    rw [sending] at begun
    exact closed.waited going begun (run.settled_frame now bound).2.2.2.2 True.intro rfl
  | @received wait older drained now sampled bytes addresses receiving forward later =>
    rw [closing_other code run (fun same => by cases same)]
    refine closed.of_fields ?_ ?_ (Nat.le_refl _) (fun _ => ⟨?_, rfl⟩)
    · exact acted_shutdown linked (fun inner same => by cases same)
        (run.wired.next_acted code.toWireCode (.datagram bytes addresses now sampled))
    · rw [triesLeft_waits (readOn_waits wait older drained), receiving]
      exact Nat.le_refl _
    · rw [receiving]
      exact True.intro
  | @passed wait older drained receiving =>
    rw [closing_other code run (fun same => by cases same)]
    refine closed.of_fields rfl ?_ (Nat.le_refl _) (fun _ => ⟨?_, rfl⟩)
    · rw [triesLeft_waits (passOn_waits wait older drained), receiving]
      exact Nat.le_refl _
    · rw [receiving]
      exact True.intro
  | called call =>
    rw [closing_other code run (fun same => by cases same)]
    exact closed.of_fields (run.wired.loop.next_quiet code.zlib call.quiet).2.1 (Nat.le_refl _) (Nat.le_refl _)
      fun waits => ⟨waits, rfl⟩

variable {code : LoopCode F} {display : D} {cols rows : Int32} {predictionOn : Bool} {family : SocketFamily}
  {hopIntervalMs : Nat} {trace : List RunAction} {run : RunLoop D F}

theorem run_closed
    (reached : (runMachine code (start code display cols rows predictionOn family hopIntervalMs)).Run trace run) :
    let machine := runMachine code (start code display cols rows predictionOn family hopIntervalMs)
    run.Closed (machine.emitted (closing code) machine.init trace).length ∧
      ∀ sending ∈ machine.emitted (closing code) machine.init trace, sending.call.inst.newNum = shutdownNum := by
  intro machine
  refine reached.invariant (motive := fun trace run =>
    Closed (machine.emitted (closing code) machine.init trace).length run ∧
      ∀ sending ∈ machine.emitted (closing code) machine.init trace, sending.call.inst.newNum = shutdownNum) ?_ ?_
  · refine ⟨⟨Nat.zero_le _, fun some_yet => absurd rfl some_yet, Nat.zero_le _, fun started => ?_, fun _ => rfl⟩, ?_⟩
    · cases started
    · exact fun sending member => absurd member List.not_mem_nil
  · intro trace run action before held allowed
    obtain ⟨closed, numbered⟩ := held
    have stepped := next_stepped code run action allowed
    obtain ⟨_, _, shows, -⟩ := (run_told before).standing
    have before : machine.Run trace run := before
    rw [before.emitted_snoc action, List.length_append]
    refine ⟨closed.step (reachable_ported ⟨trace, before⟩).1 shows.linked stepped, ?_⟩
    intro sending member
    rcases List.mem_append.mp member with old | new
    · exact numbered sending old
    · unfold closing at new
      split at new
      · rename_i now draining sound
        by_cases started : run.wired.loop.sender.shutdownInProgress = true
        · rw [if_pos started] at new
          have tried := run.wired.loop.sender.tick_tried code.zlib now (run.rto code) (run.sendInterval code)
            (fragmentMtu run.mtu) run.wired.loop.fragmenter
          exact of_decide_eq_true (tried.closing started sending (Option.mem_toList.mp new))
        · rw [if_neg started] at new
          exact absurd new List.not_mem_nil
      · exact absurd new List.not_mem_nil

/-- A shutdown of our own sends its notice sixteen times at most, and no iteration that goes on to its sockets
    begins ten seconds or more after the shutdown did. -/
theorem shutdown_bounded (code : LoopCode F) (display : D) (cols rows : Int32) (predictionOn : Bool)
    (family : SocketFamily) (hopIntervalMs : Nat) (trace : List RunAction) (run : RunLoop D F)
    (reached : (runMachine code (start code display cols rows predictionOn family hopIntervalMs)).Run trace run) :
    let machine := runMachine code (start code display cols rows predictionOn family hopIntervalMs)
    let notices := machine.emitted (closing code) machine.init trace
    notices.length ≤ 16 ∧ (∀ sending ∈ notices, sending.call.inst.newNum = shutdownNum) ∧
      (run.wired.loop.sender.shutdownInProgress = true →
        ∃ began ≤ run.nowMs, run.wired.loop.sender.shutdownStart = some began ∧
          (run.phase = .waking ∨ (∃ wait older drained, run.phase = .receiving wait older drained) →
            notices.length ≤ 15 ∧ run.nowMs < began + 10000)) := by
  intro machine notices
  obtain ⟨closed, numbered⟩ := run_closed reached
  refine ⟨?_, numbered, ?_⟩
  · refine Nat.le_trans closed.bounded ?_
    cases run.phase <;> simp [triesLeft, shutdownRetries]
  · intro started
    obtain ⟨began, past, known⟩ := closed.began started
    refine ⟨began, past, known, fun standing => ?_⟩
    have waiting : waits run.phase := by
      rcases standing with waking | ⟨wait, older, drained, receiving⟩
      · rw [waking]
        exact True.intro
      · rw [receiving]
        exact True.intro
    have few := closed.bounded
    rw [triesLeft_waits waiting] at few
    have recent := (shutdownAckTimedOut_false (closed.waiting waiting) started).2 began known
    exact ⟨few, by omega⟩

/-- A shutdown whose notice goes out fifteen times, with no ack of it yet. -/
def noticedActions : List RunAction :=
  [.wake 0, .command .startShutdown, .drained, .settle true, .nothing] ++ (List.range 15).flatMap fun notice =>
    let now := 300 + 250 * notice
    [.wake now, .drained, .send now now false, .settle true, .nothing]

def noticedRun : RunLoop PlainScreen Nat := noticedActions.foldl (runMachine sampleCode sampleStart).next sampleStart

theorem noticedRun_run : (runMachine sampleCode sampleStart).Run noticedActions noticedRun :=
  Machine.Run.start.follow (by decide +kernel)

theorem shutdown_bounded_noticed :
    let machine := runMachine sampleCode sampleStart
    let notices := machine.emitted (closing sampleCode) machine.init noticedActions
    notices.length = 15 ∧ notices.length ≤ 15 ∧
      ∃ began, noticedRun.wired.loop.sender.shutdownStart = some began ∧ noticedRun.nowMs < began + 10000 := by
  intro machine notices
  obtain ⟨-, -, lasting⟩ := shutdown_bounded sampleCode (MoshDisplay.newBlank 80 24) 80 24 true .v4 10000 noticedActions
    noticedRun noticedRun_run
  obtain ⟨began, -, known, waiting⟩ := lasting (by decide +kernel)
  obtain ⟨few, recent⟩ := waiting (.inl (by decide +kernel))
  exact ⟨by decide +kernel, few, began, known, recent⟩

end RunLoop

end MoshModel
