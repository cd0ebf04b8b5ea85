import MoshClient.Ssp.Emissions
import MoshClient.Ssp.SenderMap

namespace MoshModel

open Transition SenderConfig

/-- A user stream whose `subtract` does nothing: it keeps its whole log. -/
structure FullLog where
  stream : UserStream
deriving DecidableEq

instance : SspSentState FullLog where
  diffFrom log existing := log.stream.diffFrom existing.stream
  subtract log _ := log

/-- What the session does with the live state of a sender, besides sending it. -/
class UserLog (S : Type) where
  new : S
  pushBytes : S → Bytes → S
  pushResize : S → Int32 → Int32 → S

instance : UserLog UserStream := { new := .new, pushBytes := .pushBytes, pushResize := .pushResize }

instance : UserLog FullLog where
  new := ⟨.new⟩
  pushBytes log bytes := ⟨log.stream.pushBytes bytes⟩
  pushResize log width height := ⟨log.stream.pushResize width height⟩

inductive SenderOutput where
  | nothing
  | waited (ms : Nat)
  | ticked (sending : Option Sending)
deriving DecidableEq

structure Driven (S : Type) where
  sender : SspSender S
  fragmenter : Fragmenter
  outputs : List SenderOutput

namespace Driven

section Generic

variable {S : Type} [UserLog S] [SspSentState S] [DecidableEq S]

def start (now sendMindelay : Nat) : Driven S :=
  { sender := SspSender.new UserLog.new now sendMindelay, fragmenter := Fragmenter.default, outputs := [] }

def quietly (driven : Driven S) (sender : SspSender S) : Driven S :=
  { driven with sender := sender, outputs := driven.outputs ++ [.nothing] }

def act (zlib : Zlib) (driven : Driven S) : SenderAction → Driven S
  | .pushBytes bytes =>
    driven.quietly (driven.sender.setCurrentState (UserLog.pushBytes driven.sender.currentState bytes))
  | .pushResize width height =>
    driven.quietly (driven.sender.setCurrentState (UserLog.pushResize driven.sender.currentState width height))
  | .startShutdown now => driven.quietly (driven.sender.startShutdown now)
  | .acknowledge ack => driven.quietly (driven.sender.processAcknowledgmentThrough ack)
  | .setAckNum ack => driven.quietly (driven.sender.setAckNum ack)
  | .setDataAck => driven.quietly driven.sender.setDataAck
  | .remoteHeard ts => driven.quietly (driven.sender.remoteHeard ts)
  | .waitTime now rto sendInterval =>
    let (ms, sender) := driven.sender.waitTime now rto sendInterval
    { driven with sender := sender, outputs := driven.outputs ++ [.waited ms] }
  | .tick now rto sendInterval mtu =>
    let ticked := driven.sender.tick zlib now rto sendInterval mtu driven.fragmenter
    { sender := ticked.sender, fragmenter := ticked.fragmenter,
      outputs := driven.outputs ++ [.ticked ticked.sending] }

def drive (S : Type) [UserLog S] [SspSentState S] [DecidableEq S] (zlib : Zlib) (now sendMindelay : Nat)
    (trace : List SenderAction) : Driven S :=
  trace.foldl (act zlib) (start now sendMindelay)

theorem drive_snoc (zlib : Zlib) (now sendMindelay : Nat) (trace : List SenderAction) (action : SenderAction) :
    drive S zlib now sendMindelay (trace ++ [action]) = (drive S zlib now sendMindelay trace).act zlib action := by
  rw [drive, List.foldl_append]
  rfl

end Generic

end Driven

/-- A log read on from what rationalization has taken off its start. -/
def FullLog.above (base : List UserEvent) (stream : UserStream) : FullLog := ⟨⟨base ++ stream.events⟩⟩

theorem FullLog.above_embeds (base : List UserEvent) : Embeds (FullLog.above base) := by
  constructor
  · intro left right same
    have events := congrArg (fun log : FullLog => log.stream.events) same
    exact UserStream.ext (List.append_cancel_left events)
  · intro stream existing
    exact UserStream.diffFrom_append base stream.events existing.events

namespace SspSender

theorem rationalizeStates_full (sender : SspSender FullLog) : sender.rationalizeStates = sender := by
  unfold rationalizeStates
  split
  · rfl
  · have queue : (sender.queue.mapStates fun state => SspSentState.subtract state sender.queue.front.state) =
        sender.queue := SentQueue.eq_of_fields (List.map_id _) rfl
    dsimp only
    rw [queue]
    rfl

theorem rationalizeStates_above {sender : SspSender UserStream} (nested : sender.Nested)
    (base : List UserEvent) :
    ∃ longer, sender.map (FullLog.above base) = sender.rationalizeStates.map (FullLog.above longer) := by
  unfold rationalizeStates
  by_cases single : sender.queue.sentStates.length < 2
  · rw [if_pos single]
    exact ⟨base, rfl⟩
  · rw [if_neg single]
    have moved : ∀ stream : UserStream, sender.queue.front.state.events <+: stream.events →
        FullLog.above base stream = FullLog.above (base ++ sender.queue.front.state.events)
          (stream.subtract sender.queue.front.state) := by
      intro stream known
      unfold FullLog.above
      rw [List.append_assoc, UserStream.subtract_events known]
    refine ⟨base ++ sender.queue.front.state.events, ?_⟩
    have current := moved sender.currentState (nested.current _ sender.queue.front_mem)
    have queue : sender.queue.map (FullLog.above base) =
        (sender.queue.mapStates fun state => SspSentState.subtract state sender.queue.front.state).map
          (FullLog.above (base ++ sender.queue.front.state.events)) := by
      apply SentQueue.eq_of_fields
      · simp only [SentQueue.map, SentQueue.mapStates, List.map_map]
        refine List.map_congr_left fun s stored => ?_
        unfold TimestampedState.map
        rw [moved s.state (nested.front_begins stored)]
        rfl
      · rfl
    unfold map
    rw [current, queue]
    rfl

theorem prepared_above {sender : SspSender UserStream} (nested : sender.Nested) (base : List UserEvent)
    (now rto : Nat) :
    ∃ longer, (sender.map (FullLog.above base)).prepared now rto =
      (sender.prepared now rto).map (FullLog.above longer) := by
  have updated : (sender.updateAssumedReceiverState now rto).Nested := ⟨nested.streams, nested.current⟩
  obtain ⟨longer, same⟩ := rationalizeStates_above updated base
  refine ⟨longer, ?_⟩
  rw [prepared, rationalizeStates_full, map_updateAssumedReceiverState, same]
  rfl

end SspSender

namespace Driven

/-- The rationalizing sender beside the one that keeps full logs, after the same actions. -/
structure InStep (driven : Driven UserStream) (full : Driven FullLog) (config : SenderConfig) : Prop where
  sender : driven.sender = config.sender
  fragmenter : driven.fragmenter = config.fragmenter
  above : ∃ base, full.sender = driven.sender.map (FullLog.above base)
  fragmenters : full.fragmenter = driven.fragmenter
  outputs : full.outputs = driven.outputs
  log : full.sender.currentState.stream.events = config.pushed

variable {zlib : Zlib} {driven : Driven UserStream} {full : Driven FullLog} {config : SenderConfig}

theorem tick_full_current (zlib : Zlib) (sender : SspSender FullLog) (now rto sendInterval mtu : Nat)
    (fragmenter : Fragmenter) :
    (sender.tick zlib now rto sendInterval mtu fragmenter).sender.currentState = sender.currentState := by
  rw [(sender.tick_due zlib now rto sendInterval mtu fragmenter).1, SspSender.prepared,
    SspSender.rationalizeStates_full]
  rfl

theorem InStep.act (inStep : InStep driven full config) (nested : config.sender.Nested)
    (action : SenderAction) :
    InStep (driven.act zlib action) (full.act zlib action) (config.next zlib action) := by
  obtain ⟨sender, fragmenter, ⟨base, above⟩, fragmenters, outputs, log⟩ := inStep
  obtain ⟨drivenSender, drivenFragmenter, drivenOutputs⟩ := driven
  obtain ⟨fullSender, fullFragmenter, fullOutputs⟩ := full
  dsimp only at sender fragmenter above fragmenters outputs
  subst sender fragmenter above fragmenters outputs
  have push : ∀ (stream : UserStream) (events : List UserEvent), (⟨⟨base ++ stream.events ++ events⟩⟩ : FullLog) =
      FullLog.above base ⟨stream.events ++ events⟩ :=
    fun stream events => congrArg (fun log => (⟨⟨log⟩⟩ : FullLog)) (List.append_assoc _ _ _)
  cases action with
  | pushBytes bytes =>
    refine ⟨rfl, rfl, ⟨base, ?_⟩, rfl, rfl, congrArg (· ++ bytes.map UserEvent.byte) log⟩
    exact congrArg (SspSender.setCurrentState _) (push config.sender.currentState (bytes.map .byte))
  | pushResize width height =>
    refine ⟨rfl, rfl, ⟨base, ?_⟩, rfl, rfl, congrArg (· ++ [UserEvent.resize width height]) log⟩
    exact congrArg (SspSender.setCurrentState _) (push config.sender.currentState [.resize width height])
  | startShutdown now =>
    have shut := config.sender.map_startShutdown (FullLog.above base) now
    have frozen : (config.sender.startShutdown now).currentState = config.sender.currentState := by
      unfold SspSender.startShutdown
      split <;> rfl
    have current := (congrArg SspSender.currentState shut).trans (congrArg (FullLog.above base) frozen)
    refine ⟨rfl, rfl, ⟨base, shut⟩, rfl, rfl, Eq.trans ?_ log⟩
    exact congrArg (fun log : FullLog => log.stream.events) current
  | acknowledge ack =>
    exact ⟨rfl, rfl, ⟨base, config.sender.map_processAcknowledgmentThrough _ ack⟩, rfl, rfl, log⟩
  | setAckNum ack => exact ⟨rfl, rfl, ⟨base, rfl⟩, rfl, rfl, log⟩
  | setDataAck => exact ⟨rfl, rfl, ⟨base, rfl⟩, rfl, rfl, log⟩
  | remoteHeard ts => exact ⟨rfl, rfl, ⟨base, rfl⟩, rfl, rfl, log⟩
  | waitTime now rto sendInterval =>
    have same := config.sender.map_waitTime (FullLog.above_embeds base) now rto sendInterval
    refine ⟨rfl, rfl, ⟨base, ?_⟩, rfl, ?_, log⟩
    · exact congrArg Prod.snd same
    · exact congrArg (fun waited => fullOutputs ++ [.waited (Prod.fst waited)]) same
  | tick now rto sendInterval mtu =>
    obtain ⟨longer, prepared⟩ := SspSender.prepared_above nested base now rto
    have same := config.sender.tick_map (FullLog.above_embeds longer) zlib now rto sendInterval mtu
      config.fragmenter prepared
    have kept := tick_full_current zlib (config.sender.map (FullLog.above base)) now rto sendInterval mtu
      config.fragmenter
    refine ⟨rfl, rfl, ⟨longer, ?_⟩, ?_, ?_, ?_⟩
    · exact congrArg Ticked.sender same
    · exact congrArg Ticked.fragmenter same
    · exact congrArg (fun ticked => fullOutputs ++ [.ticked (Ticked.sending ticked)]) same
    · exact (congrArg (fun log : FullLog => log.stream.events) kept).trans log

theorem drive_inStep {start sendMindelay : Nat} {trace : List SenderAction}
    (run : (senderMachine zlib start sendMindelay).Run trace config) :
    InStep (drive UserStream zlib start sendMindelay trace) (drive FullLog zlib start sendMindelay trace)
      config := by
  refine run.invariant (motive := fun trace config =>
    InStep (drive UserStream zlib start sendMindelay trace) (drive FullLog zlib start sendMindelay trace)
      config) ?_ ?_
  · exact ⟨rfl, rfl, ⟨[], rfl⟩, rfl, rfl, rfl⟩
  · intro trace config action run inStep allowed
    obtain ⟨base, queued, chronicle, rebased⟩ := (reachable_sound ⟨trace, run⟩).traced
    rw [drive_snoc, drive_snoc]
    exact inStep.act (rebased.nested chronicle) action

end Driven

/-- Rationalization shows in nothing that a sender does: the sender that keeps every log in full gives out
    the same waits and the same instructions at the same ticks. -/
theorem rationalization_invisible (zlib : Zlib) (start sendMindelay : Nat) (trace : List SenderAction)
    (config : SenderConfig) (run : (senderMachine zlib start sendMindelay).Run trace config) :
    (Driven.drive UserStream zlib start sendMindelay trace).outputs =
        (Driven.drive FullLog zlib start sendMindelay trace).outputs ∧
      (Driven.drive UserStream zlib start sendMindelay trace).sender = config.sender ∧
      (Driven.drive FullLog zlib start sendMindelay trace).sender.currentState.stream.events =
        config.pushed := by
  have inStep := Driven.drive_inStep run
  exact ⟨inStep.outputs.symm, inStep.sender, inStep.log⟩

def acknowledgedKeys : List SenderAction :=
  [.pushBytes [97, 98], .tick 0 50 20 500, .tick 20 50 20 500, .acknowledge 1, .pushBytes [99],
    .waitTime 30 50 20, .tick 40 50 20 500, .tick 300 50 20 500]

theorem rationalization_invisible_acknowledged :
    (Driven.drive UserStream sampleZlib 0 1 acknowledgedKeys).sender.currentState.events = [.byte 99] ∧
      (Driven.drive FullLog sampleZlib 0 1 acknowledgedKeys).sender.currentState.stream.events =
        [.byte 97, .byte 98, .byte 99] ∧
      (Driven.drive UserStream sampleZlib 0 1 acknowledgedKeys).outputs =
        (Driven.drive FullLog sampleZlib 0 1 acknowledgedKeys).outputs :=
  ⟨by decide +kernel, by decide +kernel, (rationalization_invisible sampleZlib 0 1 acknowledgedKeys _
    (Machine.Run.start.follow (by decide +kernel))).1⟩

end MoshModel
