import MoshClient.Ssp.Agreement
import MoshClient.Ssp.Outlook

namespace MoshModel

open Transition

namespace SentQueue

variable {S : Type} {queue : SentQueue S} {now rto : Nat}

theorem updateAssumedReceiverState_lapsed
    (lapsed : ∀ s ∈ queue.sentStates.tail, rto + ackDelayMs ≤ now - s.timestamp) :
    (queue.updateAssumedReceiverState now rto).assumedReceiver = 0 := by
  show freshWalk now rto queue.sentStates.tail = 0
  cases rest : queue.sentStates.tail with
  | nil => rfl
  | cons s others =>
    rw [rest] at lapsed
    rw [freshWalk, if_neg (Nat.not_lt_of_le (lapsed s (List.mem_cons_self ..)))]

theorem stamps_front (queue : SentQueue S) : queue.stamps.head? = some queue.front.stamp := by
  rw [stamps, List.head?_map, head?_eq_front]
  rfl

end SentQueue

namespace SspSender

variable {S : Type} [SspSentState S]

theorem prepared_front (sender : SspSender S) (now rto : Nat) :
    (sender.prepared now rto).queue.front.num = sender.queue.front.num := by
  have heads := (sender.prepared now rto).queue.stamps_front
  rw [sender.prepared_stamps, SentQueue.stamps_front] at heads
  exact (congrArg Prod.snd (Option.some.inj heads)).symm

variable [DecidableEq S]

omit [SspSentState S] in
theorem computeTimers_acks (sender : SspSender S) {now sendInterval : Nat} (rto : Nat)
    (asks : sender.nextAckTime ≤ now) (rested : sender.queue.back.timestamp + sendInterval ≤ now) :
    (sender.computeTimers now rto sendInterval).1.2.any (· ≤ now) = true := by
  unfold computeTimers
  rw [if_neg (fun hurried => by omega)]
  dsimp only
  rw [Option.any_some, decide_eq_true_eq]
  split
  · exact rested
  · exact asks

theorem sendDue_assumed (zlib : Zlib) (sender : SspSender S) (dueSend : Bool) (now mtu : Nat)
    (fragmenter : Fragmenter) (first : sender.queue.assumedReceiver = 0) :
    ∃ inst, (sender.sendDue zlib dueSend true now mtu fragmenter).sending =
        some (fragmenter.send zlib { inst := inst, mtu := mtu }).1 ∧
      inst.oldNum = sender.queue.front.num := by
  have skip : ∀ proposed, sender.attemptProspectiveResendOptimization proposed = (proposed, sender) :=
    fun proposed => if_pos (.inl first)
  unfold sendDue
  dsimp only
  rw [skip]
  dsimp only
  have front := SentQueue.assumed_of_zero first
  split
  · obtain ⟨inst, sent⟩ := sender.sendEmptyAck_spec zlib now mtu fragmenter
    refine ⟨inst, ?_, sent.old.trans (congrArg _ front)⟩
    rw [if_pos rfl]
    cases dueSend <;> exact sent.sending
  · rename_i carries
    obtain ⟨inst, sent⟩ := sender.sendToReceiver_spec zlib now _ mtu fragmenter
      (fun nothing => carries (List.isEmpty_iff.mpr nothing))
    exact ⟨inst, sent.sending, sent.old.trans (congrArg _ front)⟩

/-- A tick at its ack's time, when every state sent has been given up for lost, frames against the oldest. -/
theorem tick_fallback (zlib : Zlib) (sender : SspSender S) {now rto sendInterval : Nat} (mtu : Nat)
    (fragmenter : Fragmenter) (lapsed : ∀ s ∈ sender.queue.sentStates, rto + ackDelayMs ≤ now - s.timestamp)
    (asks : sender.nextAckTime ≤ now) (rested : sender.queue.back.timestamp + sendInterval ≤ now) :
    ∃ inst, (sender.tick zlib now rto sendInterval mtu fragmenter).sending =
        some (fragmenter.send zlib { inst := inst, mtu := mtu }).1 ∧
      inst.oldNum = sender.queue.front.num := by
  obtain ⟨index, stamps⟩ := (sender.updateAssumedReceiverState now rto).rationalizeStates_queue
  have first : (sender.prepared now rto).queue.assumedReceiver = 0 := by
    refine index.trans (SentQueue.updateAssumedReceiverState_lapsed ?_)
    exact fun s member => lapsed s (List.mem_of_mem_tail member)
  have timed : (sender.prepared now rto).nextAckTime = sender.nextAckTime := by
    unfold prepared rationalizeStates
    split <;> rfl
  have back := congrArg Prod.fst (sender.prepared_back now rto)
  have due : ((sender.prepared now rto).computeTimers now rto sendInterval).1.2.any (· ≤ now) = true := by
    apply computeTimers_acks
    · rw [timed]
      exact asks
    · rw [show (sender.prepared now rto).queue.back.timestamp = sender.queue.back.timestamp from back]
      exact rested
  rw [← sender.prepared_front now rto]
  obtain ⟨-, queue, -⟩ := (sender.prepared now rto).computeTimers_spec now rto sendInterval
  unfold tick
  dsimp only
  rw [show (sender.updateAssumedReceiverState now rto).rationalizeStates = sender.prepared now rto from rfl, due,
    Bool.not_true, Bool.and_false, if_neg Bool.false_ne_true, ← queue]
  exact sendDue_assumed zlib _ _ now mtu fragmenter (queue ▸ first)

end SspSender

namespace SspReceiver

variable {S : Type}

theorem processInstruction_takes (applyString : S → Bytes → Except WireError S) (receiver : SspReceiver S)
    (inst : TransportInstruction) {now : Nat} (version : inst.protocolVersion = moshProtocolVersion)
    (held : receiver.holds inst.oldNum = true) (throwaway : inst.throwawayNum ≤ inst.oldNum)
    (waited : receiver.quenchUntil ≤ now)
    (applies : ∀ s ∈ receiver.received, s.num = inst.oldNum → ∃ state,
      (if inst.diff = [] then .ok s.state else applyString s.state inst.diff) = .ok state) :
    (receiver.processInstruction applyString inst now).2.holds inst.newNum = true := by
  cases known : receiver.holds inst.newNum with
  | true =>
    unfold processInstruction
    rw [if_neg (not_not.mpr version), if_pos known]
    exact known
  | false =>
    have admitted := processInstruction_admitted applyString version known held throwaway (.inr waited) applies
    have cases := receiver.processInstruction_cases applyString inst now
    generalize receiver.processInstruction applyString inst now = outcome at *
    obtain ⟨result, after⟩ := outcome
    cases cases with
    | refused unculled uninserted =>
      rw [uninserted] at admitted
      cases admitted
    | dropped culled uninserted queue =>
      rw [uninserted] at admitted
      cases admitted
    | inserted culled queue held named applied insertion =>
      subst insertion
      exact (holds_iff _ _).mpr ⟨_, (mem_insertState _ _ _ _).mpr (.inl rfl), rfl⟩

end SspReceiver

namespace TwoParty

variable {zlib : Zlib} {system : TwoParty}

/-- The receiver's newest state is the last that it reported. -/
structure Heard (system : TwoParty) : Prop where
  ascending : system.receiver.Ascending
  reported : system.receiver.latest.num ∈ 0 :: system.reported

theorem Heard.next (heard : system.Heard) (zlib : Zlib) (action : TwoPartyAction) :
    (system.next zlib action).Heard := by
  cases action with
  | sender action => exact ⟨heard.ascending, heard.reported⟩
  | deliver inst now =>
    obtain ⟨ascending, ⟨num, hadDiff, state, latest, -, newest⟩ | ⟨-, same⟩⟩ :=
      SspReceiver.processInstruction_latest UserStream.applyString heard.ascending inst now
    · refine ⟨ascending, ?_⟩
      dsimp only [TwoParty.next]
      rw [newest, latest, ← List.cons_append]
      exact List.mem_append_right _ (List.mem_singleton_self num)
    · refine ⟨ascending, ?_⟩
      dsimp only [TwoParty.next]
      rw [same, ← List.cons_append]
      exact List.mem_append_left _ heard.reported

theorem reachable_heard {senderNow receiverNow sendMindelay : Nat}
    (reached : (twoPartyMachine zlib senderNow receiverNow sendMindelay).Reachable system) : system.Heard :=
  reached.invariant (motive := fun system => system.Heard)
    ⟨SspReceiver.new_ascending _ _, List.mem_cons_self ..⟩ fun _ action _ heard _ => heard.next zlib action

theorem Agreed.newest (agreed : system.Agreed zlib) (heard : system.Heard) {events : List UserEvent}
    (assigned : (system.config.sender.queue.back.num, events) ∈ system.config.assigned)
    (held : system.receiver.holds system.config.sender.queue.back.num = true) :
    system.receiver.latest.num = system.config.sender.queue.back.num ∧
      system.receiver.latest.state.events = events := by
  obtain ⟨base, queued, chronicle, rebased⟩ := agreed.sound.traced
  have origin := agreed.held _ (SspReceiver.latest_mem system.receiver)
  have most := chronicle.newest _ rebased.back _ origin
  obtain ⟨s, member, named⟩ := (SspReceiver.holds_iff _ _).mp held
  have least := heard.ascending.le_latest member
  rw [named] at least
  have same : system.receiver.latest.num = system.config.sender.queue.back.num := UInt64.le_antisymm most least
  exact ⟨same, chronicle.functional _ origin _ assigned same⟩

theorem Agreed.acknowledged (agreed : system.Agreed zlib) :
    (system.config.sender.processAcknowledgmentThrough system.config.sender.queue.back.num).queue.front.num =
      system.config.sender.queue.back.num := by
  obtain ⟨base, queued, chronicle, rebased⟩ := agreed.sound.traced
  have known : (queued.any fun entry => entry.1 = system.config.sender.queue.back.num) = true :=
    List.any_eq_true.mpr ⟨_, List.mem_of_getLast? rebased.back, decide_eq_true rfl⟩
  have view := (rebased.acknowledge system.config.sender.queue.back.num).front
  rw [if_pos known] at view
  exact (chronicle.acknowledged_front known view rebased.front).2

theorem ticked_newest (zlib : Zlib) (config : SenderConfig) {now rto sendInterval mtu : Nat} {sending : Sending}
    (sent : (config.sender.tick zlib now rto sendInterval mtu config.fragmenter).sending = some sending) :
    (config.tick zlib now rto sendInterval mtu).sender.queue.back.num = sending.call.inst.newNum ∧
      (config.tick zlib now rto sendInterval mtu).assigned =
        config.assigned ++ [(sending.call.inst.newNum, config.pushed)] ∧
      (config.tick zlib now rto sendInterval mtu).sendings = config.sendings ++ [sending] := by
  obtain ⟨-, -, -, ⟨silent, -⟩ | ⟨base, inst, -, requeued, framed, -⟩⟩ :=
    config.sender.tick_due zlib now rto sendInterval mtu config.fragmenter
  · rw [sent] at silent
    cases silent
  · have same : sending.call.inst = inst := by
      rw [sent] at framed
      rw [Option.some.inj framed]
      exact congrArg FragmentCall.inst (Fragmenter.send_call _ _ _)
    unfold SenderConfig.tick
    dsimp only
    rw [sent, same]
    exact ⟨(Requeued.newest requeued).2, congrArg _ (by rw [← same]; rfl), rfl⟩

end TwoParty

/-- Whatever was lost, once every state sent has been given up for lost and an ack is due, one tick, one
    delivery and one ack bring the receiver to all that was pushed, and the sender to know it. -/
theorem recovers (zlib : Zlib) (senderNow receiverNow sendMindelay : Nat) (system : TwoParty)
    (reached : (twoPartyMachine zlib senderNow receiverNow sendMindelay).Reachable system)
    (room : system.config.sender.shutdownInProgress = false → system.config.sender.queue.back.num < shutdownNum - 1)
    (now rto sendInterval mtu : Nat) (forward : system.config.clock ≤ now)
    (lapsed : ∀ s ∈ system.config.sender.queue.sentStates, rto + ackDelayMs ≤ now - s.timestamp)
    (asks : system.config.sender.nextAckTime ≤ now)
    (rested : system.config.sender.queue.back.timestamp + sendInterval ≤ now) :
    let machine := twoPartyMachine zlib senderNow receiverNow sendMindelay
    let tick := TwoPartyAction.sender (.tick now rto sendInterval mtu)
    ∃ sending, (machine.next system tick).config.sendings = system.config.sendings ++ [sending] ∧
      (sending.fragments ≠ [] → ∀ arrival, system.receiver.quenchUntil ≤ arrival →
        let inst := sending.call.inst
        let steps := [tick, .deliver inst arrival, .sender (.acknowledge inst.newNum)]
        let after := steps.foldl machine.next system
        machine.Follows system steps ∧ after.receiver.latest.num = inst.newNum ∧
          after.receiver.latest.state.events = system.config.pushed ∧
          after.config.sender.queue.front.num = inst.newNum) := by
  intro machine tick
  have agreed := TwoParty.reachable_agreed reached
  have heard := TwoParty.reachable_heard reached
  obtain ⟨inst, sent, old⟩ := system.config.sender.tick_fallback zlib mtu system.config.fragmenter lapsed asks rested
  have called := congrArg FragmentCall.inst
    (Fragmenter.send_call zlib system.config.fragmenter { inst := inst, mtu := mtu })
  generalize (Fragmenter.send zlib system.config.fragmenter { inst := inst, mtu := mtu }).1 = sending at sent called
  dsimp only at called
  subst called
  obtain ⟨back, assigned, sendings⟩ := TwoParty.ticked_newest zlib system.config sent
  refine ⟨sending, sendings, ?_⟩
  intro whole arrival waited inst steps after
  have permitted : system.allowed tick := ⟨⟨forward, room⟩, fun ack member => by cases member⟩
  have ticked := TwoParty.next_agreed agreed tick permitted
  have member : sending ∈ (system.next zlib tick).config.sendings := by
    rw [show (system.next zlib tick).config.sendings = system.config.sendings ++ [sending] from sendings]
    exact List.mem_append_right _ (List.mem_singleton_self _)
  have emitted : (system.next zlib tick).Emitted inst := ⟨sending, member, rfl, whole⟩
  have delivered := TwoParty.next_agreed ticked (.deliver inst arrival) emitted
  have informed := (heard.next zlib tick).next zlib (.deliver inst arrival)
  have held : ((system.next zlib tick).next zlib (.deliver inst arrival)).receiver.holds inst.newNum = true := by
    have faithful := ticked.sound.faithful sending member
    have base := agreed.fallback _ agreed.front (UInt64.le_refl _)
    rw [← old] at base
    obtain ⟨_, _, chronicle, -⟩ := ticked.sound.traced
    apply SspReceiver.processInstruction_takes _ _ _ faithful.version base faithful.throwaway waited
    intro s held named
    have origin := ticked.held s held
    rw [named] at origin
    obtain ⟨new, -, applied⟩ := faithful.apply chronicle.functional origin
    exact ⟨⟨new⟩, applied⟩
  have backed : ((system.next zlib tick).next zlib (.deliver inst arrival)).config.sender.queue.back.num =
      inst.newNum := back
  have logged : (inst.newNum, system.config.pushed) ∈ (system.config.tick zlib now rto sendInterval mtu).assigned := by
    rw [assigned]
    exact List.mem_append_right _ (List.mem_singleton_self _)
  rw [← backed] at held
  obtain ⟨latest, events⟩ := delivered.newest informed (backed ▸ logged) held
  have acked := delivered.acknowledged
  rw [backed] at latest acked
  have reported := informed.reported
  rw [latest] at reported
  have answers : ∀ ack ∈ (SenderAction.acknowledge inst.newNum).acknowledged,
      ack ∈ 0 :: ((system.next zlib tick).next zlib (.deliver inst arrival)).reported := by
    intro ack same
    rw [← Option.some.inj same]
    exact reported
  exact ⟨⟨permitted, emitted, ⟨True.intro, answers⟩, True.intro⟩, latest, events, acked⟩

/-- Two keys go out and are lost; the next ack carries them once more. -/
def lostTrace : List TwoPartyAction :=
  [.sender (.pushBytes [104, 105]), .sender (.tick 8 1000 250 500), .sender (.tick 250 1000 250 500)]

def lostSystem : TwoParty := lostTrace.foldl (twoPartyMachine sampleZlib 0 0 1).next (TwoParty.start 0 0 1)

theorem lostSystem_run : (twoPartyMachine sampleZlib 0 0 1).Run lostTrace lostSystem :=
  Machine.Run.start.follow (by decide +kernel)

theorem recovers_lost :
    let machine := twoPartyMachine sampleZlib 0 0 1
    let tick := TwoPartyAction.sender (.tick 3250 1000 250 500)
    ∃ sending, (machine.next lostSystem tick).config.sendings = lostSystem.config.sendings ++ [sending] ∧
      (sending.fragments ≠ [] →
        ([tick, .deliver sending.call.inst 3300, .sender (.acknowledge sending.call.inst.newNum)].foldl machine.next
          lostSystem).receiver.latest.state.events = [.byte 104, .byte 105]) := by
  have pushed : lostSystem.config.pushed = [.byte 104, .byte 105] := by decide +kernel
  obtain ⟨sending, sent, brings⟩ := recovers sampleZlib 0 0 1 lostSystem ⟨_, lostSystem_run⟩ (by decide +kernel) 3250 1000
    250 500 (by decide +kernel) (by decide +kernel) (by decide +kernel) (by decide +kernel)
  exact ⟨sending, sent, fun whole => (brings whole 3300 (by decide +kernel)).2.2.1.trans pushed⟩

end MoshModel
