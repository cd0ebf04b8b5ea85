import MoshClient.Ssp.QueueOrder

namespace MoshModel

open Transition SenderConfig

namespace SspSender

section Streams

variable {sender : SspSender UserStream}

theorem eq_between {first middle last : UserStream} (lower : first.events <+: middle.events)
    (upper : middle.events <+: last.events) (same : last = first) : last = middle := by
  subst same
  exact UserStream.ext (lower.eq_of_length_le upper.length_le)

theorem Nested.diff_eq_nil_iff (nested : sender.Nested) {s : TimestampedState UserStream}
    (stored : s ∈ sender.queue.sentStates) :
    SspSentState.diffFrom sender.currentState s.state = [] ↔ sender.currentState = s.state := by
  obtain ⟨tail, split⟩ := nested.current s stored
  have extended : sender.currentState = ⟨s.state.events ++ tail⟩ := UserStream.ext split.symm
  rw [extended]
  refine (UserStream.diffFrom_extension_eq_nil_iff s.state.events tail).trans ?_
  constructor
  · rintro rfl
    exact UserStream.ext (List.append_nil _)
  · intro same
    exact List.append_right_eq_self.mp (congrArg UserStream.events same)

theorem Nested.proposal_ne_nil (nested : sender.Nested)
    (behind : sender.currentState ≠ sender.queue.assumed.state) :
    (sender.attemptProspectiveResendOptimization
      (SspSentState.diffFrom sender.currentState sender.queue.assumed.state)).1 ≠ [] := by
  obtain ⟨placed, diff, -⟩ := sender.attemptProspectiveResendOptimization_spec _ rfl
  have stored := sender.queue.assumed_mem
  rw [diff]
  rcases placed with same | front
  · rw [same]
    exact mt (nested.diff_eq_nil_iff stored).mp behind
  · rw [front, sender.queue.assumeFront_assumed]
    intro empty
    have level := (nested.diff_eq_nil_iff sender.queue.front_mem).mp empty
    exact behind (eq_between (nested.front_begins stored) (nested.current _ stored) level)

/-- A send that is due in a tick has something to carry: a retry from the oldest state falls due only
    after the tick has stopped taking the newest one to have arrived. -/
theorem behind_of_dueSend {now rto sendInterval : Nat}
    (ordered : sender.queue.sentStates.Pairwise fun earlier later => earlier.timestamp ≤ later.timestamp)
    (nested : (sender.prepared now rto).Nested) (due : sender.dueSend now rto sendInterval = true) :
    (sender.prepared now rto).currentState ≠ (sender.prepared now rto).queue.assumed.state := by
  obtain ⟨t, scheduled, reached⟩ := (Option.any_eq_true _ _).mp due
  have assumed := (sender.prepared now rto).queue.assumed_mem
  rcases (sender.prepared now rto).computeTimers_reason now rto sendInterval t scheduled with
    ahead | behind | ⟨level, ahead, late⟩
  · exact fun level => ahead (eq_between (nested.begins_back assumed)
      (nested.current _ (SentQueue.back_mem _)) level)
  · exact behind
  · exfalso
    have index := (sender.updateAssumedReceiverState now rto).rationalizeStates_queue.1
    have back := congrArg Prod.fst (sender.prepared_back now rto)
    rcases sender.queue.updateAssumedReceiverState_fresh now rto ordered with oldest | fresh
    · have front : (sender.prepared now rto).queue.assumed = (sender.prepared now rto).queue.front :=
        SentQueue.assumed_of_zero (index.trans oldest)
      exact ahead (level.trans (congrArg TimestampedState.state front))
    · have passed := of_decide_eq_true reached
      simp only [TimestampedState.stamp] at back
      omega

end Streams

end SspSender

namespace SenderConfig

variable {zlib : Zlib} {start sendMindelay : Nat} {config : SenderConfig}

theorem prepared_nested (reached : (senderMachine zlib start sendMindelay).Reachable config) (now rto : Nat) :
    (config.sender.prepared now rto).Nested := by
  obtain ⟨base, queued, prepared⟩ := (reachable_sound reached).prepared now rto
  exact prepared.rebased.nested prepared.chronicle

theorem due_send_carries (reached : (senderMachine zlib start sendMindelay).Reachable config)
    (now rto sendInterval : Nat) (due : config.sender.dueSend now rto sendInterval = true) :
    (config.sender.proposed now rto sendInterval).1 ≠ [] := by
  have nested := prepared_nested reached now rto
  have behind := SspSender.behind_of_dueSend (reachable_queue reached).timestamps nested due
  have timed : (config.sender.timers now rto sendInterval).2.Nested := ⟨nested.streams, nested.current⟩
  exact timed.proposal_ne_nil behind

theorem tick_outcome (reached : (senderMachine zlib start sendMindelay).Reachable config)
    (now rto sendInterval mtu : Nat) :
    (config.sender.dueSend now rto sendInterval = false ∧ config.sender.dueAck now rto sendInterval = false ∧
      config.sender.tick zlib now rto sendInterval mtu config.fragmenter =
        { sender := (config.sender.timers now rto sendInterval).2, fragmenter := config.fragmenter,
          sending := none }) ∨
      ∃ sending, (config.sender.tick zlib now rto sendInterval mtu config.fragmenter).sending = some sending ∧
        SspSender.Emitted config.sender now
          (config.sender.tick zlib now rto sendInterval mtu config.fragmenter) sending := by
  by_cases quiet : config.sender.dueSend now rto sendInterval = false ∧
      config.sender.dueAck now rto sendInterval = false
  · exact .inl ⟨quiet.1, quiet.2, config.sender.tick_quiet zlib now rto sendInterval mtu config.fragmenter
      quiet.1 quiet.2⟩
  · right
    have emits := config.sender.tick_emits zlib now rto sendInterval mtu config.fragmenter <| by
      cases ack : config.sender.dueAck now rto sendInterval with
      | true => exact .inl rfl
      | false =>
        have send : config.sender.dueSend now rto sendInterval = true := by simp_all
        exact .inr ⟨send, due_send_carries reached now rto sendInterval send⟩
    obtain ⟨sending, sent⟩ := Option.isSome_iff_exists.mp emits
    exact ⟨sending, sent, config.sender.tick_emitted zlib now rto sendInterval mtu config.fragmenter
      sending sent⟩

theorem tick_waitTime (reached : (senderMachine zlib start sendMindelay).Reachable config)
    (now rto sendInterval mtu : Nat) (positive : 0 < sendInterval) :
    1 ≤ ((config.sender.tick zlib now rto sendInterval mtu config.fragmenter).sender.waitTime now rto
      sendInterval).1 := by
  rcases tick_outcome reached now rto sendInterval mtu with ⟨noSend, noAck, quiet⟩ | ⟨sending, -, emitted⟩
  · rw [quiet]
    have again : (config.sender.timers now rto sendInterval).2.computeTimers now rto sendInterval =
        config.sender.timers now rto sendInterval :=
      (config.sender.prepared now rto).computeTimers_again now rto sendInterval
    apply SspSender.waitTime_pos
    · intro t scheduled
      rw [again] at scheduled
      have early := (Option.any_eq_false _ _).mp noSend t scheduled
      exact Nat.lt_of_not_le (by simpa using early)
    · rw [again]
      have early := (Option.any_eq_false _ _).mp noAck _
        ((config.sender.prepared now rto).computeTimers_deadline now rto sendInterval).1
      exact Nat.lt_of_not_le (of_decide_eq_false early)
  · obtain ⟨nextAck, stamped, -⟩ := emitted
    generalize (config.sender.tick zlib now rto sendInterval mtu config.fragmenter).sender = after at *
    apply SspSender.waitTime_pos
    · intro t scheduled
      have later := after.computeTimers_nextSend now rto sendInterval t scheduled
      simp only [ackDelayMs] at later
      omega
    · obtain ⟨-, closing, going⟩ := after.computeTimers_deadline now rto sendInterval
      have hurried := after.le_hurriedAck now
      simp only [ackDelayMs, ackIntervalMs] at hurried nextAck
      by_cases shut : after.Closing
      · rw [closing shut]
        omega
      · rw [going shut]
        omega

end SenderConfig

/-- A tick in which something is due sends one instruction, and none leaves a deadline behind it: a loop
    that sleeps for `wait_time` between its ticks never spins. -/
theorem due_tick_emits (zlib : Zlib) (start sendMindelay : Nat) (config : SenderConfig)
    (reached : (senderMachine zlib start sendMindelay).Reachable config)
    (now rto sendInterval mtu : Nat) (inSession : (SenderAction.tick now rto sendInterval mtu).InSession) :
    (config.sender.dueSend now rto sendInterval = true ∨ config.sender.dueAck now rto sendInterval = true →
        ∃ sending, (config.tick zlib now rto sendInterval mtu).sendings = config.sendings ++ [sending]) ∧
      (config.sender.dueSend now rto sendInterval = true →
        (config.sender.proposed now rto sendInterval).1 ≠ []) ∧
      1 ≤ ((config.tick zlib now rto sendInterval mtu).sender.waitTime now rto sendInterval).1 := by
  refine ⟨fun due => ?_, due_send_carries reached now rto sendInterval, ?_⟩
  · rcases tick_outcome reached now rto sendInterval mtu with ⟨noSend, noAck, -⟩ | ⟨sending, sent, -⟩
    · rw [noSend, noAck] at due
      rcases due with send | ack
      · cases send
      · cases ack
    · refine ⟨sending, ?_⟩
      simp only [SenderConfig.tick, sent, Option.toList_some]
  · exact tick_waitTime reached now rto sendInterval mtu (by obtain ⟨-, -, lower, -⟩ := inSession; omega)

def typedKey : List SenderAction := [.pushBytes [97], .tick 0 50 20 500, .tick 20 50 20 500]

theorem due_tick_emits_retry :
    let config := typedKey.foldl (senderMachine sampleZlib 0 1).next (start 0 1)
    config.sender.dueSend 170 50 20 = true ∧
      (∃ sending, (config.tick sampleZlib 170 50 20 500).sendings = config.sendings ++ [sending]) ∧
      1 ≤ ((config.tick sampleZlib 170 50 20 500).sender.waitTime 170 50 20).1 := by
  intro config
  have due : config.sender.dueSend 170 50 20 = true := by decide +kernel
  obtain ⟨emits, -, later⟩ := due_tick_emits sampleZlib 0 1 config
    ⟨typedKey, Machine.Run.start.follow (by decide +kernel)⟩ 170 50 20 500 (by decide)
  exact ⟨due, emits (.inl due), later⟩

end MoshModel
