import MoshClient.Session.Closing
import MoshClient.Fragment.Genuine
import MoshClient.Ssp.Emissions
import MoshClient.Ssp.TwoParty

namespace MoshModel

open Transition

def RunAction.asksShutdown : RunAction → Bool
  | .command .startShutdown => true
  | _ => false

/-- What a command adds to the stream of the user. -/
def RunAction.typed : RunAction → List UserEvent
  | .command (.input bytes) => bytes.map .byte
  | .command (.resize width height) => [.resize width height]
  | _ => []

/-- Everything typed before the shutdown was asked for, in order. -/
def typedInput : List RunAction → List UserEvent
  | [] => []
  | action :: trace => if action.asksShutdown then [] else action.typed ++ typedInput trace

theorem typedInput_snoc (trace : List RunAction) (action : RunAction) :
    typedInput (trace ++ [action]) =
      typedInput trace ++ if trace.any RunAction.asksShutdown then [] else action.typed := by
  induction trace with
  | nil =>
    cases asks : action.asksShutdown with
    | false => simp [typedInput, asks]
    | true =>
      cases action with
      | command command => cases command <;> simp_all [typedInput, RunAction.asksShutdown, RunAction.typed]
      | _ => cases asks
  | cons first trace ih =>
    rw [List.cons_append, typedInput, typedInput, ih, List.any_cons]
    cases first.asksShutdown with
    | true => rfl
    | false =>
      rw [if_neg Bool.false_ne_true, if_neg Bool.false_ne_true, List.append_assoc]
      rfl

namespace SenderConfig

/-- What a received instruction makes of the sender: an ack taken, a number to ack in turn. -/
inductive Heeds (ack : UInt64) : SenderAction → Prop
  | acknowledge : Heeds ack (.acknowledge ack)
  | setAckNum (num : UInt64) : Heeds ack (.setAckNum num)
  | setDataAck : Heeds ack .setDataAck
  | remoteHeard (ts : Nat) : Heeds ack (.remoteHeard ts)

theorem Heeds.allowed {ack : UInt64} {action : SenderAction} (heeds : Heeds ack action) (config : SenderConfig) :
    config.allowed action := by
  cases heeds <;> exact True.intro

theorem Heeds.acknowledged {ack : UInt64} {action : SenderAction} (heeds : Heeds ack action) :
    ∀ num ∈ action.acknowledged, num = ack := by
  cases heeds with
  | acknowledge => exact fun num member => (Option.some.inj member).symm
  | setAckNum _ | setDataAck | remoteHeard _ => exact fun num member => by cases member

theorem Heeds.frame {ack : UInt64} {action : SenderAction} (heeds : Heeds ack action) (zlib : Zlib)
    (config : SenderConfig) :
    config.next zlib action = { config with sender := (config.next zlib action).sender } := by
  cases heeds <;> rfl

theorem follows_heeds {ack : UInt64} {actions : List SenderAction} (heeds : ∀ action ∈ actions, Heeds ack action)
    (zlib : Zlib) (now sendMindelay : Nat) (config : SenderConfig) :
    (senderMachine zlib now sendMindelay).Follows config actions ∧
      actions.foldl (SenderConfig.next zlib) config =
        { config with sender := (actions.foldl (SenderConfig.next zlib) config).sender } := by
  induction actions generalizing config with
  | nil => exact ⟨True.intro, rfl⟩
  | cons action actions ih =>
    have first := heeds action (List.mem_cons_self ..)
    obtain ⟨follows, frame⟩ := ih (fun other member => heeds other (List.mem_cons_of_mem _ member))
      (config.next zlib action)
    refine ⟨⟨first.allowed config, follows⟩, ?_⟩
    rw [List.foldl_cons, frame, first.frame]

theorem next_sendings (zlib : Zlib) (config : SenderConfig) (action : SenderAction) :
    ∃ later, (config.next zlib action).sendings = config.sendings ++ later := by
  cases action with
  | tick now rto sendInterval mtu => exact ⟨_, rfl⟩
  | _ => exact ⟨[], (List.append_nil _).symm⟩

theorem foldl_sendings (zlib : Zlib) (actions : List SenderAction) (config : SenderConfig) :
    ∃ later, (actions.foldl (SenderConfig.next zlib) config).sendings = config.sendings ++ later := by
  induction actions generalizing config with
  | nil => exact ⟨[], (List.append_nil _).symm⟩
  | cons action actions ih =>
    obtain ⟨first, extended⟩ := config.next_sendings zlib action
    obtain ⟨more, all⟩ := ih (config.next zlib action)
    refine ⟨first ++ more, ?_⟩
    rw [List.foldl_cons, all, extended, List.append_assoc]

end SenderConfig

namespace SessionLoop

variable {D : Type} [MoshDisplay D]

open SenderConfig

theorem handleInstruction_heeds (zlib : Zlib) (loop : SessionLoop D) (addresses : Nat → Address)
    (inst : TransportInstruction) (now : Nat) (config : SenderConfig) (driven : config.sender = loop.sender) :
    ∃ actions : List SenderAction, (∀ action ∈ actions, Heeds inst.ackNum action) ∧
      (actions.foldl (SenderConfig.next zlib) config).sender =
        (loop.handleInstruction addresses inst now).sender := by
  unfold handleInstruction
  by_cases version : inst.protocolVersion ≠ moshProtocolVersion
  · rw [if_pos version]
    exact ⟨[], fun action member => absurd member List.not_mem_nil, driven⟩
  · rw [if_neg version]
    dsimp only
    have acked : ∀ action ∈ [SenderAction.acknowledge inst.ackNum], Heeds inst.ackNum action := by
      intro action member
      rw [List.mem_singleton.mp member]
      exact .acknowledge
    have sender : (config.next zlib (.acknowledge inst.ackNum)).sender = (loop.acknowledge inst.ackNum).sender := by
      show config.sender.processAcknowledgmentThrough inst.ackNum = _
      rw [driven]
      rfl
    generalize (loop.acknowledge inst.ackNum).receiver.processInstruction (HostStreamState.applyString addresses)
      inst now = outcome
    obtain ⟨result, receiver⟩ := outcome
    cases result with
    | error e => exact ⟨_, acked, sender⟩
    | ok outcome =>
      cases outcome with
      | latest num hadDiff state =>
        refine ⟨[.acknowledge inst.ackNum, .setAckNum num, .remoteHeard now] ++ (if hadDiff then [.setDataAck] else []),
          ?_, ?_⟩
        · intro action member
          cases hadDiff <;> simp only [Bool.false_eq_true, if_true, if_false, List.append_nil, List.cons_append,
            List.nil_append, List.mem_cons, List.not_mem_nil, or_false] at member
          · rcases member with rfl | rfl | rfl
            · exact .acknowledge
            · exact .setAckNum num
            · exact .remoteHeard now
          · rcases member with rfl | rfl | rfl | rfl
            · exact .acknowledge
            · exact .setAckNum num
            · exact .remoteHeard now
            · exact .setDataAck
        · rw [(showLatest_spec _ num).2.2.1]
          dsimp only
          rw [← sender]
          cases hadDiff <;> rfl
      | outOfOrder num hadDiff => exact ⟨_, acked, sender⟩
      | duplicate => exact ⟨_, acked, sender⟩
      | noReference => exact ⟨_, acked, sender⟩
      | quenched => exact ⟨_, acked, sender⟩

end SessionLoop

theorem HandleCall.action_sender {D : Type} [MoshDisplay D] (zlib : Zlib) (loop : SessionLoop D) (call : HandleCall) :
    (loop.next zlib call.action).sender = loop.sender ∧
      (loop.next zlib call.action).fragmenter = loop.fragmenter := by
  cases call with
  | resizeDisplay width height =>
    dsimp only [HandleCall.action, SessionLoop.next, SessionLoop.resizeDisplay]
    split <;> exact ⟨rfl, rfl⟩
  | takeHostBytes | setHostBytesCapture _ | setPrediction _ => exact ⟨rfl, rfl⟩

theorem SspSender.tick_ids {S : Type} [DecidableEq S] [SspSentState S] (zlib : Zlib) (sender : SspSender S)
    (now rto sendInterval mtu : Nat) (fragmenter : Fragmenter) :
    (sender.tick zlib now rto sendInterval mtu fragmenter).fragmenter.nextInstructionId ≤
      fragmenter.nextInstructionId + 1 := by
  obtain ⟨-, -, -, ⟨-, same, -⟩ | ⟨base, inst, -, -, -, after⟩⟩ :=
    sender.tick_due zlib now rto sendInterval mtu fragmenter
  · rw [same]
    exact Nat.le_succ _
  · rw [after]
    exact fragmenter.send_ids zlib _

namespace RunLoop

variable {D F : Type}

/-- The fragments of the last tick that are still to go out. -/
def unsent : Phase → List Fragment
  | .sending _ out => out
  | _ => []

/-- The room that the loop takes for granted: in memory for what is typed, in the numbers of states and of
    instructions for a tick. -/
def Roomy (run : RunLoop D F) : RunAction → Prop
  | .command (.input bytes) => run.wired.loop.sender.shutdownInProgress = false →
      run.wired.loop.sender.currentState.events.length + bytes.length ≤ isizeMax
  | .command (.resize _ _) => run.wired.loop.sender.shutdownInProgress = false →
      run.wired.loop.sender.currentState.events.length + 1 ≤ isizeMax
  | .drained => (run.wired.loop.sender.shutdownInProgress = false →
      run.wired.loop.sender.queue.back.num < shutdownNum - 1) ∧
      run.wired.loop.fragmenter.nextInstructionId + 1 < 2 ^ 64
  | _ => True

instance (run : RunLoop D F) (action : RunAction) : Decidable (run.Roomy action) := by
  unfold Roomy
  split <;> infer_instance

/-- The sender of the loop and its fragmenter, as a sender of their own that is given what was typed. -/
structure Drives (first : List UserEvent) (trace : List RunAction) (run : RunLoop D F) (config : SenderConfig) :
    Prop where
  sender : config.sender = run.wired.loop.sender
  fragmenter : config.fragmenter = run.wired.loop.fragmenter
  clock : config.clock ≤ run.nowMs
  pushed : config.pushed = first ++ typedInput trace
  shutdown : run.wired.loop.sender.shutdownInProgress = trace.any RunAction.asksShutdown
  outgoing : ∀ frag ∈ unsent run.phase, Cut config.sendings frag
  ids : run.wired.loop.fragmenter.nextInstructionId < 2 ^ 64

variable {first : List UserEvent} {trace : List RunAction} {run after : RunLoop D F} {config : SenderConfig}

theorem Drives.idle (drives : Drives first trace run config) {action : RunAction}
    (mute : action.typed = [] ∧ action.asksShutdown = false)
    (sender : after.wired.loop.sender = run.wired.loop.sender)
    (fragmenter : after.wired.loop.fragmenter = run.wired.loop.fragmenter) (forward : run.nowMs ≤ after.nowMs)
    (less : ∀ frag ∈ unsent after.phase, frag ∈ unsent run.phase) :
    Drives first (trace ++ [action]) after config := by
  obtain ⟨typed, asks⟩ := mute
  refine ⟨drives.sender.trans sender.symm, drives.fragmenter.trans fragmenter.symm,
    Nat.le_trans drives.clock forward, ?_, ?_, fun frag member => drives.outgoing frag (less frag member), ?_⟩
  · rw [drives.pushed, typedInput_snoc, typed, ite_self, List.append_nil]
  · rw [sender, drives.shutdown, List.any_append, List.any_cons, asks, List.any_nil, Bool.or_false, Bool.or_false]
  · rw [fragmenter]
    exact drives.ids

theorem readOn_unsent (wait : Option Nat) (older : List Nat) (drained : Nat) :
    unsent (readOn wait older drained) = [] := by
  have waiting := readOn_waits wait older drained
  generalize readOn wait older drained = phase at *
  cases phase <;> first | rfl | exact waiting.elim

theorem passOn_unsent (wait : Option Nat) (older : List Nat) (drained : Nat) :
    unsent (passOn wait older drained) = [] := by
  have waiting := passOn_waits wait older drained
  generalize passOn wait older drained = phase at *
  cases phase <;> first | rfl | exact waiting.elim

variable [MoshDisplay D]

/-- The instruction that a datagram completes in a step of the loop. -/
def Takes (code : LoopCode F) (run : RunLoop D F) (action : RunAction) (inst : TransportInstruction) : Prop :=
  ∃ bytes addresses now sampled fragment, action = .receive bytes addresses now sampled ∧
    WiredLoop.fragmentOf code.toWireCode run.wired.opener (.datagram bytes addresses now sampled) = some fragment ∧
    (run.wired.assembly.addFragment code.zlib fragment).1 = some inst

/-- A step of the loop as steps of its sender. -/
def Driven (code : LoopCode F) (first : List UserEvent) (trace : List RunAction) (run : RunLoop D F)
    (action : RunAction) (after : RunLoop D F) (config : SenderConfig) : Prop :=
  ∃ actions, (senderMachine code.zlib 0 1).Follows config actions ∧
    Drives first (trace ++ [action]) after (actions.foldl (SenderConfig.next code.zlib) config) ∧
    ∀ sent ∈ actions, ∀ ack ∈ sent.acknowledged, ∃ inst, Takes code run action inst ∧ inst.ackNum = ack

omit [MoshDisplay D] in
theorem Drives.unmoved {code : LoopCode F} {action : RunAction}
    (drives : Drives first (trace ++ [action]) after config) : Driven code first trace run action after config :=
  ⟨[], True.intro, drives, fun _ member => absurd member List.not_mem_nil⟩

omit [MoshDisplay D] in
theorem Drives.typing {code : LoopCode F} {action : RunAction} (drives : Drives first trace run config)
    (push : SenderAction) (asks : action.asksShutdown = false)
    (mute : push.acknowledged = none) (nowMs : after.nowMs = run.nowMs) (phase : after.phase = run.phase)
    (fragmenter : after.wired.loop.fragmenter = run.wired.loop.fragmenter)
    (dropped : run.wired.loop.sender.shutdownInProgress = true → after.wired.loop.sender = run.wired.loop.sender)
    (pushed : run.wired.loop.sender.shutdownInProgress = false → config.allowed push ∧
      config.next code.zlib push =
        { config with sender := after.wired.loop.sender, pushed := config.pushed ++ action.typed } ∧
      after.wired.loop.sender.shutdownInProgress = false) : Driven code first trace run action after config := by
  have shutdown := drives.shutdown
  cases started : run.wired.loop.sender.shutdownInProgress with
  | true =>
    rw [started] at shutdown
    refine Drives.unmoved ⟨?_, ?_, ?_, ?_, ?_, ?_, ?_⟩
    · rw [dropped started]
      exact drives.sender
    · rw [fragmenter]
      exact drives.fragmenter
    · rw [nowMs]
      exact drives.clock
    · rw [drives.pushed, typedInput_snoc, ← shutdown, if_pos rfl, List.append_nil]
    · rw [dropped started, started, List.any_append, ← shutdown, Bool.true_or]
    · rw [phase]
      exact drives.outgoing
    · rw [fragmenter]
      exact drives.ids
  | false =>
    obtain ⟨allowed, next, going⟩ := pushed started
    rw [started] at shutdown
    refine ⟨[push], ⟨allowed, True.intro⟩, ?_, ?_⟩
    · rw [List.foldl_cons, List.foldl_nil, next]
      refine ⟨rfl, drives.fragmenter.trans fragmenter.symm, ?_, ?_, ?_, ?_, ?_⟩
      · rw [nowMs]
        exact drives.clock
      · dsimp only
        rw [drives.pushed, typedInput_snoc, ← shutdown, if_neg Bool.false_ne_true, List.append_assoc]
      · rw [going, List.any_append, ← shutdown, List.any_cons, asks]
        rfl
      · rw [phase]
        exact drives.outgoing
      · rw [fragmenter]
        exact drives.ids
    · intro sent member ack acknowledged
      rw [List.mem_singleton.mp member, mute] at acknowledged
      cases acknowledged

theorem Drives.commanded {code : LoopCode F} {command : SessionCommand} (drives : Drives first trace run config)
    {now : Nat} (begun : now = run.nowMs) (roomy : run.Roomy (.command command)) (continues : command ≠ .terminate) :
    Driven code first trace run (.command command)
      { run with wired := run.wired.next code.toWireCode (.inner (.drain command now)) } config := by
  have drained : (run.wired.next code.toWireCode (.inner (.drain command now))).loop =
      run.wired.loop.drainCommand now command := rfl
  have same := drives.sender
  cases command with
  | terminate => exact absurd rfl continues
  | input bytes =>
    have fragmenter : (run.wired.loop.drainCommand now (.input bytes)).fragmenter = run.wired.loop.fragmenter ∧
        (run.wired.loop.drainCommand now (.input bytes)).sender =
          if run.wired.loop.sender.shutdownInProgress then run.wired.loop.sender
          else run.wired.loop.sender.setCurrentState (run.wired.loop.sender.currentState.pushBytes bytes) := by
      dsimp only [SessionLoop.drainCommand, SessionLoop.predictInput]
      split
      · exact ⟨rfl, rfl⟩
      · split
        · exact ⟨rfl, rfl⟩
        · split <;> exact ⟨rfl, rfl⟩
    obtain ⟨fragmenter, sender⟩ := fragmenter
    refine drives.typing (.pushBytes bytes) rfl rfl rfl rfl fragmenter (fun started => ?_) (fun going => ?_)
    · rw [drained, sender, if_pos started]
    · rw [drained, sender, going, if_neg Bool.false_ne_true, ← same]
      rw [← same] at going
      refine ⟨⟨going, ?_⟩, rfl, going⟩
      rw [same]
      exact roomy (same ▸ going)
  | resize width height =>
    have fragmenter : (run.wired.loop.drainCommand now (.resize width height)).fragmenter =
          run.wired.loop.fragmenter ∧
        (run.wired.loop.drainCommand now (.resize width height)).sender =
          if run.wired.loop.sender.shutdownInProgress then run.wired.loop.sender
          else run.wired.loop.sender.setCurrentState
            (run.wired.loop.sender.currentState.pushResize width height) := by
      dsimp only [SessionLoop.drainCommand]
      split <;> exact ⟨rfl, rfl⟩
    obtain ⟨fragmenter, sender⟩ := fragmenter
    refine drives.typing (.pushResize width height) rfl rfl rfl rfl fragmenter (fun started => ?_)
      (fun going => ?_)
    · rw [drained, sender, if_pos started]
    · rw [drained, sender, going, if_neg Bool.false_ne_true, ← same]
      rw [← same] at going
      refine ⟨⟨going, ?_⟩, rfl, going⟩
      rw [same]
      exact roomy (same ▸ going)
  | startShutdown =>
    have started : (run.wired.loop.sender.startShutdown now).shutdownInProgress = true := by
      unfold SspSender.startShutdown
      split
      · rename_i already
        exact already
      · rfl
    refine ⟨[.startShutdown now], ⟨begun ▸ drives.clock, True.intro⟩, ?_, ?_⟩
    · refine ⟨?_, drives.fragmenter, Nat.le_of_eq begun, ?_, ?_, drives.outgoing, drives.ids⟩
      · show config.sender.startShutdown now = _
        rw [same]
        rfl
      · show config.pushed = _
        rw [drives.pushed, typedInput_snoc]
        simp [RunAction.typed]
      · rw [drained, List.any_append, List.any_cons, RunAction.asksShutdown, Bool.true_or, Bool.or_true]
        exact started
    · intro sent member ack acknowledged
      rw [List.mem_singleton.mp member] at acknowledged
      cases acknowledged

theorem Drives.ticked {code : LoopCode F} (drives : Drives first trace run config) {now : Nat} {out : List Fragment}
    (begun : now = run.nowMs) (roomy : run.Roomy .drained)
    (output : out = ((run.wired.loop.sender.tick code.zlib now (run.rto code) (run.sendInterval code)
      (fragmentMtu run.mtu) run.wired.loop.fragmenter).sending.map Sending.fragments).getD []) :
    Driven code first trace run .drained { run with
      wired := run.wired.next code.toWireCode
        (.inner (.tick now (run.rto code) (run.sendInterval code) (fragmentMtu run.mtu)))
      rtoMs := run.rto code
      phase := .sending now out } config := by
  obtain ⟨room, ids⟩ := roomy
  have due := run.wired.loop.sender.tick_due code.zlib now (run.rto code) (run.sendInterval code)
    (fragmentMtu run.mtu) run.wired.loop.fragmenter
  have shutdown : (run.wired.loop.sender.tick code.zlib now (run.rto code) (run.sendInterval code)
      (fragmentMtu run.mtu) run.wired.loop.fragmenter).sender.shutdownInProgress =
      run.wired.loop.sender.shutdownInProgress :=
    due.2.1.trans (run.wired.loop.sender.prepared_fields now (run.rto code)).1
  have bumped := run.wired.loop.sender.tick_ids code.zlib now (run.rto code) (run.sendInterval code)
    (fragmentMtu run.mtu) run.wired.loop.fragmenter
  refine ⟨[.tick now (run.rto code) (run.sendInterval code) (fragmentMtu run.mtu)],
    ⟨⟨begun ▸ drives.clock, ?_⟩, True.intro⟩, ?_, ?_⟩
  · rw [drives.sender]
    exact room
  · rw [List.foldl_cons, List.foldl_nil, SenderConfig.next, SenderConfig.tick, drives.sender, drives.fragmenter]
    refine ⟨rfl, rfl, Nat.le_of_eq begun, ?_, ?_, ?_, ?_⟩
    · dsimp only
      rw [drives.pushed, typedInput_snoc]
      simp [RunAction.typed]
    · rw [List.any_append, ← drives.shutdown, List.any_cons, show RunAction.asksShutdown .drained = false from rfl,
        List.any_nil, Bool.or_false, Bool.or_false]
      exact shutdown
    · intro frag member
      dsimp only [unsent] at member
      rw [output] at member
      dsimp only
      cases sending : (run.wired.loop.sender.tick code.zlib now (run.rto code) (run.sendInterval code)
          (fragmentMtu run.mtu) run.wired.loop.fragmenter).sending with
      | none =>
        rw [sending] at member
        cases member
      | some sent =>
        rw [sending] at member
        exact ⟨sent, List.mem_append_right _ (List.mem_singleton_self _), member⟩
    · exact Nat.lt_of_le_of_lt bumped ids
  · intro sent member ack acknowledged
    rw [List.mem_singleton.mp member] at acknowledged
    cases acknowledged

theorem Drives.waited {code : LoopCode F} (drives : Drives first trace run config) {now : Nat} {bound : Bool}
    (begun : now = run.nowMs) (wired : after.wired = run.wired.next code.toWireCode
      (.inner (.waitTime now (run.rto code) (run.sendInterval code))))
    (nowMs : after.nowMs = run.nowMs) (out : unsent after.phase = []) :
    Driven code first trace run (.settle bound) after config := by
  have timed := run.wired.loop.sender.computeTimers_spec now (run.rto code) (run.sendInterval code)
  have sender : after.wired.loop.sender =
      (run.wired.loop.sender.waitTime now (run.rto code) (run.sendInterval code)).2 := by
    rw [wired]
    rfl
  have fragmenter : after.wired.loop.fragmenter = run.wired.loop.fragmenter := by
    rw [wired]
    rfl
  refine ⟨[.waitTime now (run.rto code) (run.sendInterval code)], ⟨begun ▸ drives.clock, True.intro⟩, ?_, ?_⟩
  · refine ⟨?_, drives.fragmenter.trans fragmenter.symm, ?_, ?_, ?_, ?_, ?_⟩
    · rw [sender, ← drives.sender]
      rfl
    · rw [nowMs]
      exact Nat.le_of_eq begun
    · show config.pushed = _
      rw [drives.pushed, typedInput_snoc]
      simp [RunAction.typed]
    · rw [sender, List.any_append, ← drives.shutdown]
      refine timed.2.2.1.trans ?_
      simp [RunAction.asksShutdown]
    · rw [out]
      exact fun frag member => absurd member List.not_mem_nil
    · rw [fragmenter]
      exact drives.ids
  · intro sent member ack acknowledged
    rw [List.mem_singleton.mp member] at acknowledged
    cases acknowledged

theorem Drives.received {code : LoopCode F} (drives : Drives first trace run config) {bytes : Bytes}
    {addresses : Nat → Address} {now sampled : Nat}
    (acted : WiredLoop.Acted code.toWireCode run.wired (.datagram bytes addresses now sampled) after.wired.loop)
    (nowMs : after.nowMs = run.nowMs) (out : unsent after.phase = []) (linked : run.wired.loop.Linked) :
    Driven code first trace run (.receive bytes addresses now sampled) after config := by
  generalize loopEq : after.wired.loop = loop at acted
  cases acted with
  | dropped =>
    refine Drives.unmoved (drives.idle ⟨rfl, rfl⟩ ?_ ?_ (Nat.le_of_eq nowMs.symm) ?_)
    · rw [loopEq]
    · rw [loopEq]
    · rw [out]
      exact fun frag member => absurd member List.not_mem_nil
  | @handled _ _ _ _ fragment inst carried completed =>
    obtain ⟨actions, heeds, sender⟩ :=
      run.wired.loop.handleInstruction_heeds code.zlib addresses inst now config drives.sender
    obtain ⟨follows, frame⟩ := SenderConfig.follows_heeds heeds code.zlib 0 1 config
    obtain ⟨-, shutdown, fragmenter⟩ := SessionLoop.handleInstruction_announced linked addresses inst now
    refine ⟨actions, follows, ?_, ?_⟩
    · rw [frame]
      refine ⟨?_, ?_, ?_, ?_, ?_, ?_, ?_⟩
      · rw [loopEq]
        exact sender
      · rw [loopEq, fragmenter]
        exact drives.fragmenter
      · rw [nowMs]
        exact drives.clock
      · dsimp only
        rw [drives.pushed, typedInput_snoc]
        simp [RunAction.typed]
      · rw [loopEq, List.any_append, ← drives.shutdown]
        simp only [SessionLoop.shutdownFields, Prod.mk.injEq] at shutdown
        rw [shutdown.2.1]
        simp [RunAction.asksShutdown]
      · rw [out]
        exact fun frag member => absurd member List.not_mem_nil
      · rw [loopEq, fragmenter]
        exact drives.ids
    · intro sent member ack acknowledged
      have same := (heeds sent member).acknowledged ack acknowledged
      exact ⟨inst, ⟨bytes, addresses, now, sampled, fragment, rfl, carried, completed⟩, same.symm⟩

theorem Drives.sent {code : LoopCode F} (drives : Drives first trace run config) {top now stamped : Nat}
    {oversize : Bool} {fragment : Fragment} {out : List Fragment}
    (sending : run.phase = .sending top (fragment :: out))
    (acted : WiredLoop.Acted code.toWireCode run.wired (.send fragment now stamped) after.wired.loop)
    (nowMs : after.nowMs = run.nowMs) (phase : after.phase = .sending top out) :
    Driven code first trace run (.send now stamped oversize) after config := by
  have kept : after.wired.loop.sender = run.wired.loop.sender ∧
      after.wired.loop.fragmenter = run.wired.loop.fragmenter := by
    generalize after.wired.loop = loop at acted
    cases acted with
    | sent exhausted => exact ⟨rfl, rfl⟩
  refine Drives.unmoved (drives.idle ⟨rfl, rfl⟩ kept.1 kept.2 (Nat.le_of_eq nowMs.symm) fun frag member => ?_)
  rw [phase] at member
  rw [sending]
  exact List.mem_cons_of_mem _ member

/-- Whatever the loop thread does, its sender takes the steps of a sender of its own. -/
theorem Drives.step {code : LoopCode F} {action : RunAction} (drives : Drives first trace run config)
    (ported : run.Ported) (linked : run.wired.loop.Linked) (roomy : run.Roomy action)
    (stepped : Stepped code run action after) : Driven code first trace run action after config := by
  have begun := ported.begun
  unfold Begun at begun
  have nothing : ∀ (frag : Fragment) (phase : Phase), unsent phase = [] → frag ∈ unsent phase →
      frag ∈ unsent run.phase := by
    intro frag phase out member
    rw [out] at member
    exact absurd member List.not_mem_nil
  cases stepped with
  | woke waking forward =>
    refine Drives.unmoved (drives.idle ⟨rfl, rfl⟩ rfl rfl (Nat.le_trans ported.recent forward) ?_)
    exact fun frag => nothing frag _ rfl
  | terminated draining =>
    exact Drives.unmoved (drives.idle ⟨rfl, rfl⟩ rfl rfl (Nat.le_refl _) fun frag => nothing frag _ rfl)
  | commanded draining continues =>
    rw [draining] at begun
    exact drives.commanded begun roomy continues
  | failed draining fatal =>
    exact Drives.unmoved (drives.idle ⟨rfl, rfl⟩ rfl rfl (Nat.le_refl _) fun frag => nothing frag _ rfl)
  | ticked draining sound output =>
    rw [draining] at begun
    exact drives.ticked begun roomy output
  | @sent top now stamped mtu oversize fragment out sending forward later shrunk =>
    exact drives.sent sending (run.wired.next_acted code.toWireCode _) rfl rfl
  | @quit now bound _ _ | @shutDown now bound _ _ _ =>
    obtain ⟨wired, -, -, -, nowMs⟩ := run.settled_frame now bound
    refine Drives.unmoved (drives.idle ⟨rfl, rfl⟩ ?_ ?_ (Nat.le_of_eq nowMs.symm) fun frag => nothing frag _ rfl)
    · rw [← wired]
      rfl
    · rw [← wired]
      rfl
  | @waited now wait bound sending talking going least most =>
    rw [sending] at begun
    exact drives.waited begun rfl (run.settled_frame now bound).2.2.2.2 rfl
  | @received wait older drained now sampled bytes addresses receiving forward later =>
    exact drives.received (run.wired.next_acted code.toWireCode (.datagram bytes addresses now sampled)) rfl
      (readOn_unsent wait older drained) linked
  | @passed wait older drained receiving =>
    refine Drives.unmoved (drives.idle ⟨rfl, rfl⟩ rfl rfl (Nat.le_refl _) fun frag => nothing frag _ ?_)
    exact passOn_unsent wait older drained
  | called call =>
    obtain ⟨sender, fragmenter⟩ := call.action_sender code.zlib run.wired.loop
    exact Drives.unmoved (drives.idle ⟨rfl, rfl⟩ sender fragmenter (Nat.le_refl _) fun _ member => member)

end RunLoop

end MoshModel
