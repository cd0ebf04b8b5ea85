import MoshClient.Session.Acknowledged
import MoshClient.Session.Closing

namespace MoshModel

open Transition

namespace SentQueue

variable {S : Type}

/-- No state of the queue was last sent after a time. -/
def SentBy (queue : SentQueue S) (now : Nat) : Prop := ∀ stamp ∈ queue.stamps, stamp.1 ≤ now

theorem SentBy.later {queue : SentQueue S} {bound now : Nat} (sent : queue.SentBy bound) (forward : bound ≤ now) :
    queue.SentBy now := fun stamp member => Nat.le_trans (sent stamp member) forward

theorem SentBy.front {queue : SentQueue S} {now : Nat} (sent : queue.SentBy now) : queue.front.timestamp ≤ now :=
  sent _ (List.mem_map_of_mem queue.front_mem)

theorem SentBy.acknowledge {queue : SentQueue S} {now : Nat} (sent : queue.SentBy now) (ack : UInt64) :
    (queue.processAcknowledgmentThrough ack).SentBy now := by
  unfold processAcknowledgmentThrough
  split
  · exact fun stamp member => sent stamp ((List.filter_sublist.map _).subset member)
  · exact sent

end SentQueue

namespace SspSender

variable {S : Type}

theorem Requeued.sentBy {sender : SspSender S} {now bound : Nat} {inst : TransportInstruction} {queue : SentQueue S}
    (requeued : Requeued sender now inst queue.sentStates) (sent : sender.queue.SentBy bound) (reached : now ≤ bound) :
    queue.SentBy bound := by
  unfold SentQueue.SentBy SentQueue.stamps at sent ⊢
  generalize queue.sentStates = states at requeued
  cases requeued with
  | appended num =>
    intro stamp member
    have member := ((SentQueue.cull_sublist _).map _).subset member
    rw [List.map_append] at member
    rcases List.mem_append.mp member with old | new
    · exact sent stamp old
    · rw [List.mem_singleton.mp new]
      exact reached
  | refreshed num carries settled =>
    intro stamp member
    rw [SentQueue.refreshBack, List.map_append] at member
    rcases List.mem_append.mp member with old | new
    · exact sent stamp (((List.dropLast_sublist _).map _).subset old)
    · rw [List.mem_singleton.mp new]
      exact reached

theorem tick_sentBy [DecidableEq S] [SspSentState S] (zlib : Zlib) {sender : SspSender S} {bound now : Nat}
    (sent : sender.queue.SentBy bound) (reached : now ≤ bound) (rto sendInterval mtu : Nat)
    (fragmenter : Fragmenter) :
    (sender.tick zlib now rto sendInterval mtu fragmenter).sender.queue.SentBy bound := by
  have prepared : (sender.prepared now rto).queue.SentBy bound := by
    unfold SentQueue.SentBy
    rw [sender.prepared_stamps]
    exact sent
  obtain ⟨-, -, -, ⟨-, -, same⟩ | ⟨base, inst, -, requeued, -⟩⟩ :=
    sender.tick_due zlib now rto sendInterval mtu fragmenter
  · unfold SentQueue.SentBy SentQueue.stamps
    rw [same]
    exact prepared
  · exact Requeued.sentBy requeued prepared reached

end SspSender

namespace SessionLoop

variable {D : Type}

/-- The states sent and the round trip they prove are of times gone by. -/
structure Past (loop : SessionLoop D) (now : Nat) : Prop where
  sent : loop.sender.queue.SentBy now
  roundtrip : loop.lastRoundtripSuccess ≤ now

theorem Past.later {loop : SessionLoop D} {bound now : Nat} (past : loop.Past bound) (forward : bound ≤ now) :
    loop.Past now := ⟨past.sent.later forward, Nat.le_trans past.roundtrip forward⟩

theorem Past.acknowledge {loop : SessionLoop D} {now : Nat} (past : loop.Past now) (ack : UInt64) :
    (loop.acknowledge ack).Past now := ⟨past.sent.acknowledge ack, (past.sent.acknowledge ack).front⟩

variable [MoshDisplay D]

theorem Past.handle {loop : SessionLoop D} {bound : Nat} (past : loop.Past bound) (addresses : Nat → Address)
    (inst : TransportInstruction) (now : Nat) : (loop.handleInstruction addresses inst now).Past bound := by
  have acked := past.acknowledge inst.ackNum
  unfold handleInstruction
  by_cases version : inst.protocolVersion ≠ moshProtocolVersion
  · rw [if_pos version]
    exact ⟨past.sent, past.roundtrip⟩
  · rw [if_neg version]
    dsimp only
    generalize (loop.acknowledge inst.ackNum).receiver.processInstruction (HostStreamState.applyString addresses)
      inst now = outcome
    obtain ⟨result, receiver⟩ := outcome
    cases result with
    | error e => exact ⟨acked.sent, acked.roundtrip⟩
    | ok outcome =>
      cases outcome with
      | latest num hadDiff state =>
        constructor
        · rw [(showLatest_spec _ num).2.2.1]
          cases hadDiff <;> exact acked.sent
        · rw [(showLatest_frame _ num).2.2]
          exact acked.roundtrip
      | outOfOrder num hadDiff => exact ⟨acked.sent, acked.roundtrip⟩
      | duplicate => exact ⟨acked.sent, acked.roundtrip⟩
      | noReference => exact ⟨acked.sent, acked.roundtrip⟩
      | quenched => exact ⟨acked.sent, acked.roundtrip⟩

theorem Past.quiet {loop : SessionLoop D} {bound : Nat} (past : loop.Past bound) (zlib : Zlib)
    {action : SessionAction} (quiet : Quiet action) : (loop.next zlib action).Past bound := by
  obtain ⟨-, -, -, -, queue, roundtrip⟩ := loop.next_quiet zlib quiet
  constructor
  · rw [queue]
    exact past.sent
  · rw [roundtrip]
    exact past.roundtrip

end SessionLoop

namespace Timing

variable {F : Type}

/-- The peer's timestamp was saved at a time gone by. -/
def SavedBy (timing : Timing F) (now : Nat) : Prop :=
  ∀ ts receivedAt, timing.savedTimestamp = some (ts, receivedAt) → receivedAt ≤ now

theorem SavedBy.later {timing : Timing F} {bound now : Nat} (saved : timing.SavedBy bound) (forward : bound ≤ now) :
    timing.SavedBy now := fun ts receivedAt held => Nat.le_trans (saved ts receivedAt held) forward

theorem SavedBy.reply {timing : Timing F} {bound : Nat} (saved : timing.SavedBy bound) (now : Nat) :
    (timing.reply now).2.SavedBy bound := by
  unfold Timing.reply
  split
  · split
    · exact fun ts receivedAt held => by cases held
    · exact saved
  · exact saved

theorem gate_saved (smoothing : Smoothing F) (timing : Timing F) (seq : UInt64) (header : PacketHeader)
    (now sampled : Nat) :
    (timing.gate smoothing seq header now sampled).savedTimestamp = timing.savedTimestamp ∨
      (timing.gate smoothing seq header now sampled).savedTimestamp = some (header.timestamp, now) := by
  unfold gate
  split
  · dsimp only
    have smoothed : ∀ (heard : Timing F) (sample : UInt64),
        (heard.smooth smoothing sample).savedTimestamp = heard.savedTimestamp := by
      intro heard sample
      unfold smooth
      dsimp only
      split <;> rfl
    split
    · rw [smoothed]
      dsimp only
      split
      · exact .inr rfl
      · exact .inl rfl
    · dsimp only
      split
      · exact .inr rfl
      · exact .inl rfl
  · exact .inl rfl

theorem SavedBy.gate {timing : Timing F} {bound : Nat} (saved : timing.SavedBy bound) (smoothing : Smoothing F)
    (seq : UInt64) (header : PacketHeader) {now : Nat} (reached : now ≤ bound) (sampled : Nat) :
    (timing.gate smoothing seq header now sampled).SavedBy bound := by
  intro ts receivedAt held
  rcases timing.gate_saved smoothing seq header now sampled with kept | renewed
  · rw [kept] at held
    exact saved ts receivedAt held
  · rw [renewed] at held
    cases held
    exact reached

end Timing

namespace WiredLoop

variable {D F : Type} [MoshDisplay D]

theorem send_saved (code : WireCode F) {wired : WiredLoop D F} {bound : Nat} (saved : wired.timing.SavedBy bound)
    (fragment : Fragment) (now stamped : Nat) :
    (wired.next code (.send fragment now stamped)).timing.SavedBy bound := by
  have replied := saved.reply now
  unfold next sendFragment
  dsimp only
  split <;> exact replied

theorem datagram_saved (code : WireCode F) {wired : WiredLoop D F} {bound now : Nat}
    (saved : wired.timing.SavedBy bound) (reached : now ≤ bound) (bytes : Bytes) (addresses : Nat → Address)
    (sampled : Nat) : (wired.next code (.datagram bytes addresses now sampled)).timing.SavedBy bound := by
  unfold next handleDatagram
  dsimp only
  split
  · exact saved
  · rename_i seq header payload opened
    have gated := saved.gate code.smoothing seq header reached sampled
    split
    · exact gated
    · split <;> exact gated

end WiredLoop

namespace RunLoop

variable {D F : Type}

/-- Whatever the loop noted a time of is past: by the head of the iteration what the sender and the sockets
    note, by the last reading of the clock what a datagram notes. -/
structure Elapsed (run : RunLoop D F) : Prop where
  loop : run.wired.loop.Past run.nowMs
  saved : run.wired.timing.SavedBy run.clock

theorem Elapsed.of_fields {run after : RunLoop D F} (elapsed : run.Elapsed)
    (loop : after.wired.loop.Past run.nowMs) (timing : after.wired.timing = run.wired.timing)
    (nowMs : run.nowMs ≤ after.nowMs) (clock : run.clock ≤ after.clock) : after.Elapsed := by
  refine ⟨loop.later nowMs, ?_⟩
  rw [timing]
  exact elapsed.saved.later clock

variable [MoshDisplay D] {code : LoopCode F} {run after : RunLoop D F} {action : RunAction}

theorem Elapsed.step (elapsed : run.Elapsed) (ported : run.Ported) (stepped : Stepped code run action after) :
    after.Elapsed := by
  have begun := ported.begun
  unfold Begun at begun
  have past := elapsed.loop
  have quiet : ∀ {inner : SessionAction}, SessionLoop.Quiet inner →
      (run.wired.next code.toWireCode (.inner inner)).loop.Past run.nowMs := past.quiet code.zlib
  have settled : ∀ {bound : Bool} {now : Nat} (clean : Bool) (error : Option String),
      ((run.settled now bound).ended clean error).Elapsed := by
    intro bound now clean error
    obtain ⟨wired, clock, -, -, nowMs⟩ := run.settled_frame now bound
    have timing := congrArg WiredLoop.timing wired
    refine elapsed.of_fields ?_ timing (Nat.le_of_eq nowMs.symm) (Nat.le_of_eq clock.symm)
    have same := past
    rw [← wired] at same
    exact ⟨same.sent, same.roundtrip⟩
  cases stepped with
  | woke standing forward => exact elapsed.of_fields past rfl (Nat.le_trans ported.recent forward) forward
  | terminated standing => exact elapsed.of_fields past rfl (Nat.le_refl _) (Nat.le_refl _)
  | passed standing => exact elapsed.of_fields past rfl (Nat.le_refl _) (Nat.le_refl _)
  | failed standing fatal =>
    exact elapsed.of_fields ⟨past.sent, past.roundtrip⟩ rfl (Nat.le_refl _) (Nat.le_refl _)
  | @commanded now command standing continues =>
    refine elapsed.of_fields ?_ rfl (Nat.le_refl _) (Nat.le_refl _)
    by_cases starts : command = .startShutdown
    · subst starts
      constructor
      · dsimp only [WiredLoop.next, SessionLoop.next, SessionLoop.drainCommand, SspSender.startShutdown]
        split <;> exact past.sent
      · exact past.roundtrip
    · exact quiet (drain_quiet now starts)
  | ticked standing sound output =>
    rw [standing] at begun
    refine elapsed.of_fields ⟨?_, past.roundtrip⟩ rfl (Nat.le_refl _) (Nat.le_refl _)
    exact SspSender.tick_sentBy code.zlib past.sent (Nat.le_of_eq begun) _ _ _ _
  | @sent top now stamped mtu oversize fragment out sending forward later shrunk =>
    have acted := run.wired.next_acted code.toWireCode (.send fragment now stamped)
    have saved := WiredLoop.send_saved code.toWireCode elapsed.saved fragment now stamped
    refine ⟨?_, saved.later (Nat.le_trans forward later)⟩
    dsimp only
    generalize (run.wired.next code.toWireCode (.send fragment now stamped)).loop = loop at acted ⊢
    cases acted with
    | sent exhausted => exact ⟨past.sent, past.roundtrip⟩
  | quit standing acknowledged => exact settled _ _
  | shutDown standing staying through => exact settled _ _
  | @waited now wait bound standing staying going least most =>
    obtain ⟨wired, clock, -, -, nowMs⟩ := run.settled_frame now bound
    refine elapsed.of_fields (quiet ?_) rfl (Nat.le_of_eq nowMs.symm) (Nat.le_of_eq clock.symm)
    simp [SessionLoop.Quiet]
  | @received wait older drained now sampled bytes addresses receiving forward later =>
    have acted := run.wired.next_acted code.toWireCode (.datagram bytes addresses now sampled)
    have saved := WiredLoop.datagram_saved code.toWireCode (elapsed.saved.later (Nat.le_trans forward later)) later
      bytes addresses sampled
    refine ⟨?_, saved⟩
    dsimp only
    generalize (run.wired.next code.toWireCode (.datagram bytes addresses now sampled)).loop = loop at acted ⊢
    cases acted with
    | dropped => exact past
    | handled carried completed => exact past.handle addresses _ now
  | called call => exact elapsed.of_fields (quiet call.quiet) rfl (Nat.le_refl _) (Nat.le_refl _)

theorem reachable_elapsed {display : D} {cols rows : Int32} {predictionOn : Bool} {family : SocketFamily}
    {hopIntervalMs : Nat} {trace : List RunAction}
    (reached : (runMachine code (start code display cols rows predictionOn family hopIntervalMs)).Run trace run) :
    run.Elapsed := by
  refine reached.invariant (motive := fun _ (run : RunLoop D F) => run.Elapsed) ?_ ?_
  · refine ⟨⟨?_, Nat.le_refl _⟩, fun ts receivedAt held => by cases held⟩
    intro stamp member
    rw [List.mem_singleton.mp member]
    exact Nat.le_refl _
  · intro trace run action before elapsed allowed
    exact elapsed.step (reachable_ported ⟨trace, before⟩).1 (next_stepped code run action allowed)

/-- Every time that the loop subtracts from a reading of its clock is at most that reading: none of its
    differences of milliseconds goes below zero. -/
theorem recorded_times_past (code : LoopCode F) (display : D) (cols rows : Int32) (predictionOn : Bool)
    (family : SocketFamily) (hopIntervalMs : Nat) (run : RunLoop D F)
    (reached : (runMachine code (start code display cols rows predictionOn family hopIntervalMs)).Reachable run) :
    run.lastPortChoice ≤ run.nowMs ∧ run.wired.loop.lastRoundtripSuccess ≤ run.nowMs ∧
      (∀ s ∈ run.wired.loop.sender.queue.sentStates, s.timestamp ≤ run.nowMs) ∧
      (run.wired.loop.sender.shutdownInProgress = true → ∀ began,
        run.wired.loop.sender.shutdownStart = some began → began ≤ run.nowMs) ∧
      (∀ ts receivedAt, run.wired.timing.savedTimestamp = some (ts, receivedAt) → receivedAt ≤ run.clock) ∧
      (∀ now, run.phase = .draining now ∨ (∃ out, run.phase = .sending now out) → now = run.nowMs) := by
  obtain ⟨trace, ran⟩ := reached
  have ported := (reachable_ported ⟨trace, ran⟩).1
  have elapsed := reachable_elapsed ran
  refine ⟨ported.chosen, elapsed.loop.roundtrip, ?_, ?_, elapsed.saved, ?_⟩
  · exact fun s member => elapsed.loop.sent _ (List.mem_map_of_mem member)
  · intro shutting began held
    obtain ⟨start, past, known⟩ := (run_closed ran).1.began shutting
    rw [held] at known
    cases known
    exact past
  · intro now standing
    have begun := ported.begun
    unfold Begun at begun
    rcases standing with draining | ⟨out, sending⟩
    · rw [draining] at begun
      exact begun
    · rw [sending] at begun
      exact begun

theorem recorded_times_past_silent : silentRun.lastPortChoice = 10001 ∧ silentRun.lastPortChoice ≤ silentRun.nowMs ∧
    ∀ s ∈ silentRun.wired.loop.sender.queue.sentStates, s.timestamp ≤ silentRun.nowMs := by
  obtain ⟨chosen, -, sent, -⟩ := recorded_times_past sampleCode (MoshDisplay.newBlank 80 24) 80 24 true .v4 10000
    silentRun ⟨_, silentRun_run⟩
  exact ⟨by decide +kernel, chosen, sent⟩

end RunLoop

end MoshModel
