import MoshClient.Ssp.Rebasing

namespace MoshModel

open Transition

namespace SenderConfig

structure Sound (zlib : Zlib) (config : SenderConfig) : Prop where
  traced : ∃ base queued,
    Chronicle config.pushed config.assigned queued config.sender.shutdownInProgress ∧
      Rebased base config.pushed queued config.sender
  short : config.sender.currentState.events.length ≤ isizeMax
  faithful : ∀ sending ∈ config.sendings, Faithful config.assigned sending.call.inst
  sent : Fragmenter.sendAll zlib (config.sendings.map Sending.call) = (config.sendings, config.fragmenter)

structure Fresh (config : SenderConfig) (inst : TransportInstruction) : Prop where
  throwaway : inst.throwawayNum = config.sender.queue.front.num
  marker : inst.oldNum = inst.newNum → config.sender.shutdownInProgress = true ∧
    inst.newNum = shutdownNum ∧ inst.diff = [] ∧ (config.sender.queue.front.num = shutdownNum ∨
      100 ≤ (UserStream.diffFrom config.sender.currentState config.sender.queue.front.state).length)

theorem start_sound (zlib : Zlib) (now sendMindelay : Nat) : (start now sendMindelay).Sound zlib :=
  ⟨⟨[], [(0, [])], Chronicle.start, rfl, rfl⟩, Nat.zero_le _, by simp [start], rfl⟩

variable {zlib : Zlib} {config : SenderConfig}

theorem push_sound (sound : config.Sound zlib) (events : List UserEvent) (stream : UserStream)
    (extended : stream.events = config.sender.currentState.events ++ events)
    (open_ : config.sender.shutdownInProgress = false)
    (room : config.sender.currentState.events.length + events.length ≤ isizeMax) :
    Sound zlib { config with sender := config.sender.setCurrentState stream
                             pushed := config.pushed ++ events } := by
  obtain ⟨base, queued, chronicle, rebased⟩ := sound.traced
  rw [open_] at chronicle
  refine ⟨⟨base, queued, ?_, ?_, rebased.queue⟩, ?_, sound.faithful, sound.sent⟩
  · rw [show (config.sender.setCurrentState stream).shutdownInProgress = false from open_]
    exact chronicle.push events
  · rw [show (config.sender.setCurrentState stream).currentState.events = stream.events from rfl, extended,
      ← List.append_assoc, rebased.current]
  · rw [show (config.sender.setCurrentState stream).currentState.events = stream.events from rfl, extended,
      List.length_append]
    exact room

theorem idle_sound (sound : config.Sound zlib) {sender : SspSender UserStream} {clock : Nat}
    (queue : sender.queue = config.sender.queue) (current : sender.currentState = config.sender.currentState)
    (shutdown : sender.shutdownInProgress = config.sender.shutdownInProgress) :
    Sound zlib { config with sender := sender, clock := clock } := by
  obtain ⟨base, queued, chronicle, rebased⟩ := sound.traced
  refine ⟨⟨base, queued, ?_, rebased.of_states (congrArg _ queue) current⟩, ?_, sound.faithful, sound.sent⟩
  · rw [shutdown]
    exact chronicle
  · rw [current]
    exact sound.short

theorem shutdown_sound (sound : config.Sound zlib) (now : Nat) :
    Sound zlib { config with sender := config.sender.startShutdown now, clock := now } := by
  unfold SspSender.startShutdown
  by_cases shutting : config.sender.shutdownInProgress = true
  · rw [if_pos shutting]
    exact idle_sound sound rfl rfl rfl
  · rw [if_neg shutting]
    obtain ⟨base, queued, chronicle, rebased⟩ := sound.traced
    exact ⟨⟨base, queued, chronicle.shut, rebased.of_states rfl rfl⟩, sound.short, sound.faithful, sound.sent⟩

theorem acknowledge_sound (sound : config.Sound zlib) (ack : UInt64) :
    Sound zlib { config with sender := config.sender.processAcknowledgmentThrough ack } := by
  obtain ⟨base, queued, chronicle, rebased⟩ := sound.traced
  exact ⟨⟨base, _, chronicle.acknowledge ack, rebased.acknowledge ack⟩, sound.short, sound.faithful,
    sound.sent⟩

/-- What a tick starts from once it is prepared: the same logs under the same numbers. -/
structure Prepared (config : SenderConfig) (start : SspSender UserStream) (base : List UserEvent)
    (queued : List Numbered) : Prop where
  chronicle : Chronicle config.pushed config.assigned queued start.shutdownInProgress
  rebased : Rebased base config.pushed queued start
  shutdown : start.shutdownInProgress = config.sender.shutdownInProgress
  front : start.queue.front.num = config.sender.queue.front.num
  back : start.queue.back.num = config.sender.queue.back.num
  diff : UserStream.diffFrom start.currentState start.queue.front.state =
    UserStream.diffFrom config.sender.currentState config.sender.queue.front.state
  short : start.currentState.events.length ≤ isizeMax

theorem Sound.prepared (sound : config.Sound zlib) (now rto : Nat) :
    ∃ base queued, Prepared config (config.sender.prepared now rto) base queued := by
  obtain ⟨base, queued, chronicle, rebased⟩ := sound.traced
  obtain ⟨shifted, prepared, shorter⟩ := rebased.prepared chronicle now rto
  have shutdown := (config.sender.prepared_fields now rto).1
  have fronts := Option.some.inj (prepared.front.symm.trans rebased.front)
  have backs := Option.some.inj (prepared.back.symm.trans rebased.back)
  refine ⟨shifted, queued, ?_, prepared, shutdown, congrArg Prod.fst fronts, congrArg Prod.fst backs,
    (prepared.front_diff rebased.front).trans (rebased.front_diff rebased.front).symm,
    Nat.le_trans shorter sound.short⟩
  rw [shutdown]
  exact chronicle

theorem tick_step (sound : config.Sound zlib) (now rto sendInterval mtu : Nat)
    (room : config.sender.shutdownInProgress = false → config.sender.queue.back.num < shutdownNum - 1) :
    (config.tick zlib now rto sendInterval mtu).Sound zlib ∧
      (config.tick zlib now rto sendInterval mtu).sender.queue.front.num =
        config.sender.queue.front.num ∧
      (config.tick zlib now rto sendInterval mtu).sender.shutdownInProgress =
        config.sender.shutdownInProgress ∧
      ∀ sending ∈ (config.sender.tick zlib now rto sendInterval mtu config.fragmenter).sending,
        config.Fresh sending.call.inst := by
  obtain ⟨base, queued, prepared⟩ := sound.prepared now rto
  have due := config.sender.tick_due zlib now rto sendInterval mtu config.fragmenter
  unfold SenderConfig.tick
  dsimp only
  generalize config.sender.tick zlib now rto sendInterval mtu config.fragmenter = ticked at *
  generalize config.sender.prepared now rto = start at *
  obtain ⟨chronicle, rebased, shutting, fronts, backs, diffs, short⟩ := prepared
  obtain ⟨current, shutdown, -, ⟨quiet, same, states⟩ | ⟨origin, inst, framed, requeued, sending, after⟩⟩ := due
  · rw [quiet]
    simp only [Option.map_none, Option.toList_none, List.append_nil]
    refine ⟨⟨⟨base, queued, ?_, rebased.of_states states current⟩, ?_, sound.faithful, ?_⟩, ?_,
      shutdown.trans shutting, ?_⟩
    · rw [shutdown]
      exact chronicle
    · rw [current]
      exact short
    · rw [same]
      exact sound.sent
    · rw [SspSender.front_congr states]
      exact fronts
    · intro sending member
      cases member
  · rw [← shutting, ← backs] at room
    have assignable := rebased.assignable chronicle room requeued
    obtain ⟨next, front⟩ := rebased.requeued chronicle requeued assignable
    have faithful := rebased.faithful chronicle short framed assignable
    have called : (config.fragmenter.send zlib { inst := inst, mtu := mtu }).1.call =
        { inst := inst, mtu := mtu } := Fragmenter.send_call zlib _ _
    rw [sending]
    simp only [Option.map_some, Option.toList_some, called]
    refine ⟨⟨⟨base, _, ?_, ?_, rfl⟩, ?_, ?_, ?_⟩, ?_, shutdown.trans shutting, ?_⟩
    · rw [shutdown]
      exact next
    · rw [current]
      exact rebased.current
    · rw [current]
      exact short
    · intro other member
      rcases History.mem_snoc.mp member with old | rfl
      · exact (sound.faithful other old).extend _
      · rw [called]
        exact faithful
    · rw [List.map_append, List.map_singleton, called, Fragmenter.sendAll_append, sound.sent, after]
    · rw [List.head?_map, SentQueue.head?_eq_front] at front
      exact (Option.some.inj front).trans fronts
    · intro other member
      obtain rfl := Option.mem_some_iff.mp member
      rw [called]
      refine ⟨framed.throwaway.trans fronts, fun same => ?_⟩
      obtain ⟨shut, last, empty, marked⟩ := rebased.marker chronicle room framed requeued same
      rw [shutting] at shut
      rw [diffs, fronts] at marked
      exact ⟨shut, last, empty, marked⟩

theorem next_sound (sound : config.Sound zlib) (action : SenderAction) (allowed : config.allowed action) :
    (config.next zlib action).Sound zlib := by
  cases action with
  | pushBytes bytes =>
    exact push_sound sound (bytes.map .byte) _ rfl allowed.1 (by rw [List.length_map]; exact allowed.2)
  | pushResize width height => exact push_sound sound [.resize width height] _ rfl allowed.1 allowed.2
  | startShutdown now => exact shutdown_sound sound now
  | acknowledge ack => exact acknowledge_sound sound ack
  | setAckNum ack => exact idle_sound sound rfl rfl rfl
  | setDataAck => exact idle_sound sound rfl rfl rfl
  | remoteHeard ts => exact idle_sound sound rfl rfl rfl
  | waitTime now rto sendInterval =>
    obtain ⟨current, queue, shutdown, -⟩ := config.sender.computeTimers_spec now rto sendInterval
    exact idle_sound sound queue current shutdown
  | tick now rto sendInterval mtu => exact (tick_step sound now rto sendInterval mtu allowed.2).1

theorem reachable_sound {now sendMindelay : Nat}
    (reached : (senderMachine zlib now sendMindelay).Reachable config) : config.Sound zlib :=
  reached.invariant (motive := fun config => config.Sound zlib) (start_sound zlib now sendMindelay)
    fun _ action _ sound allowed => next_sound sound action allowed

/-- Before a shutdown the newest queued state bears the highest number of all, with room for one more. -/
theorem Sound.newest (sound : config.Sound zlib) (going : config.sender.shutdownInProgress = false) :
    (∀ entry ∈ config.assigned, entry.1 ≤ config.sender.queue.back.num ∧ entry.2 <+: config.pushed) ∧
      config.sender.queue.back.num < config.sender.queue.back.num + 1 ∧
      ∀ s ∈ config.sender.queue.sentStates, s.num ≤ config.sender.queue.back.num := by
  obtain ⟨base, queued, chronicle, rebased⟩ := sound.traced
  refine ⟨fun entry member => ⟨?_, chronicle.prefixes entry member⟩, ?_, fun s stored => ?_⟩
  · exact chronicle.newest _ rebased.back entry member
  · have held := chronicle.held _ (rebased.member config.sender.queue.back_mem)
    have open_end : config.sender.queue.back.num ≠ shutdownNum := by
      intro last
      have shut := (chronicle.final _ held last).1
      rw [going] at shut
      cases shut
    simp only [shutdownNum] at open_end
    grind
  · exact chronicle.le_back rebased.back (rebased.member stored)

theorem tick_assigned (sound : config.Sound zlib) (going : config.sender.shutdownInProgress = false)
    (now rto sendInterval mtu : Nat) :
    let after := config.tick zlib now rto sendInterval mtu
    let newest := config.sender.queue.back.num
    (after.assigned = config.assigned ∧ after.sender.queue.back.num = newest) ∨
      (after.assigned = config.assigned ++ [(newest + 1, config.pushed)] ∧
        after.sender.queue.back.num = newest + 1) ∨
      (after.assigned = config.assigned ++ [(newest, config.pushed)] ∧
        after.sender.queue.back.num = newest ∧ (newest, config.pushed) ∈ config.assigned) := by
  obtain ⟨base, queued, prepared⟩ := sound.prepared now rto
  have due := config.sender.tick_due zlib now rto sendInterval mtu config.fragmenter
  unfold SenderConfig.tick
  dsimp only
  generalize config.sender.tick zlib now rto sendInterval mtu config.fragmenter = ticked at *
  generalize config.sender.prepared now rto = start at *
  obtain ⟨chronicle, rebased, shutting, -, nums, -, -⟩ := prepared
  obtain ⟨current, shutdown, -, ⟨quiet, -, states⟩ | ⟨origin, inst, framed, requeued, sending, -⟩⟩ := due
  · left
    rw [quiet]
    refine ⟨List.append_nil _, ?_⟩
    have last := congrArg List.getLast? states
    rw [SentQueue.getLast?_eq_back, SentQueue.getLast?_eq_back] at last
    rw [Option.some.inj last, nums]
  · right
    have newest := requeued.newest.2
    rw [sending, newest]
    simp only [Option.map_some, Option.toList_some, Fragmenter.send_call]
    generalize ticked.sender.queue.sentStates = states at requeued
    cases requeued with
    | appended num =>
      rw [shutting, going, nums] at num
      left
      rw [num]
      exact ⟨rfl, rfl⟩
    | refreshed num carries settled =>
      obtain ⟨shut, -⟩ | ⟨-, level⟩ := settled
      · rw [shutting, going] at shut
        cases shut
      · right
        have held := chronicle.held _ (rebased.member start.queue.back_mem)
        have full : logged base start.queue.back = (config.sender.queue.back.num, config.pushed) := by
          rw [logged, nums, ← level, rebased.current]
        rw [num, nums]
        exact ⟨rfl, rfl, full ▸ held⟩

end SenderConfig

end MoshModel
