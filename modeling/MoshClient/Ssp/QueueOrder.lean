import MoshClient.Ssp.Emissions
import MoshClient.Ssp.SenderTiming

namespace MoshModel

open Transition

/-- When a state was last sent, and under which number. -/
abbrev Stamp := Nat × UInt64

def TimestampedState.stamp {S : Type} (s : TimestampedState S) : Stamp := (s.timestamp, s.num)

/-- The stamps of a queue, oldest first: capped, in order of time, and of number up to the shutdown. -/
structure Stamped (clock : Nat) (stamps : List Stamp) : Prop where
  capped : stamps.length ≤ sentQueueCap
  times : stamps.Pairwise fun earlier later => earlier.1 ≤ later.1
  nums : stamps.Pairwise fun earlier later =>
    earlier.2 < later.2 ∨ earlier.2 = shutdownNum ∧ later.2 = shutdownNum
  past : ∀ stamp ∈ stamps, stamp.1 ≤ clock

namespace Stamped

variable {clock : Nat} {stamps : List Stamp}

theorem later (stamped : Stamped clock stamps) {now : Nat} (forward : clock ≤ now) : Stamped now stamps :=
  ⟨stamped.capped, stamped.times, stamped.nums, fun stamp member =>
    Nat.le_trans (stamped.past stamp member) forward⟩

theorem sublist (stamped : Stamped clock stamps) {fewer : List Stamp} (inside : fewer.Sublist stamps) :
    Stamped clock fewer :=
  ⟨Nat.le_trans inside.length_le stamped.capped, stamped.times.sublist inside, stamped.nums.sublist inside,
    fun stamp member => stamped.past stamp (inside.subset member)⟩

theorem cull_length {Entry : Type} (states : List Entry) (bound : states.length ≤ sentQueueCap + 1) :
    (SentQueue.cull states).length ≤ sentQueueCap := by
  unfold SentQueue.cull
  split
  · rw [List.length_eraseIdx]
    simp only [sentQueueCap] at *
    split <;> omega
  · omega

theorem append (stamped : Stamped clock stamps) {num : UInt64}
    (fresh : ∀ stamp ∈ stamps, stamp.2 < num ∨ stamp.2 = shutdownNum ∧ num = shutdownNum) :
    Stamped clock (SentQueue.cull (stamps ++ [(clock, num)])) := by
  have inside := SentQueue.cull_sublist (stamps ++ [(clock, num)])
  refine ⟨?_, ?_, ?_, ?_⟩
  · apply cull_length
    rw [List.length_append, List.length_singleton]
    exact Nat.succ_le_succ stamped.capped
  · exact (History.pairwise_snoc.mpr ⟨stamped.times, stamped.past⟩).sublist inside
  · exact (History.pairwise_snoc.mpr ⟨stamped.nums, fresh⟩).sublist inside
  · intro stamp member
    rcases History.mem_snoc.mp (inside.subset member) with old | rfl
    · exact stamped.past stamp old
    · exact Nat.le_refl _

theorem refresh (stamped : Stamped clock stamps) {initial : List Stamp} {last : Stamp}
    (split : stamps = initial ++ [last]) : Stamped clock (initial ++ [(clock, last.2)]) := by
  subst split
  have times := History.pairwise_snoc.mp stamped.times
  have nums := History.pairwise_snoc.mp stamped.nums
  refine ⟨?_, ?_, ?_, ?_⟩
  · have capped := stamped.capped
    rw [List.length_append, List.length_singleton] at capped ⊢
    exact capped
  · refine History.pairwise_snoc.mpr ⟨times.1, fun stamp member => ?_⟩
    exact stamped.past stamp (List.mem_append_left _ member)
  · exact History.pairwise_snoc.mpr nums
  · intro stamp member
    rcases History.mem_snoc.mp member with old | rfl
    · exact stamped.past stamp (List.mem_append_left _ old)
    · exact Nat.le_refl _

end Stamped

namespace SentQueue

variable {S : Type}

def stamps (queue : SentQueue S) : List Stamp := queue.sentStates.map TimestampedState.stamp

theorem stamps_length (queue : SentQueue S) : queue.stamps.length = queue.sentStates.length := List.length_map _

theorem stamps_back (queue : SentQueue S) : queue.stamps.getLast? = some queue.back.stamp := by
  rw [stamps, List.getLast?_map, getLast?_eq_back]
  rfl

theorem stamps_split (queue : SentQueue S) :
    queue.stamps = queue.sentStates.dropLast.map TimestampedState.stamp ++ [queue.back.stamp] := by
  have split := List.dropLast_append_getLast queue.nonempty
  conv_lhs => rw [stamps, ← split]
  rw [List.map_append]
  rfl

/-- The peer is taken to hold either the oldest state or the newest. -/
def AtEnd (queue : SentQueue S) : Prop :=
  queue.assumedReceiver = 0 ∨ queue.assumedReceiver + 1 = queue.sentStates.length

theorem freshWalk_all_or_none (now rto : Nat) (states : List (TimestampedState S))
    (ordered : states.Pairwise fun earlier later => earlier.timestamp ≤ later.timestamp) :
    freshWalk now rto states = 0 ∨
      (freshWalk now rto states = states.length ∧
        ∀ s ∈ states, now - s.timestamp < rto + ackDelayMs) := by
  induction states with
  | nil => exact .inl rfl
  | cons s rest ih =>
    obtain ⟨first, others⟩ := List.pairwise_cons.mp ordered
    unfold freshWalk
    by_cases fresh : now - s.timestamp < rto + ackDelayMs
    · rw [if_pos fresh]
      have all : ∀ other ∈ rest, now - other.timestamp < rto + ackDelayMs := by
        intro other member
        have := first other member
        omega
      right
      refine ⟨?_, List.forall_mem_cons.mpr ⟨fresh, all⟩⟩
      rcases ih others with none | ⟨whole, -⟩
      · cases rest with
        | nil => rfl
        | cons next rest =>
          rw [freshWalk, if_pos (all next (by simp))] at none
          cases none
      · rw [whole, List.length_cons]
    · rw [if_neg fresh]
      exact .inl rfl

theorem updateAssumedReceiverState_atEnd (queue : SentQueue S) (now rto : Nat)
    (ordered : queue.sentStates.Pairwise fun earlier later => earlier.timestamp ≤ later.timestamp) :
    (queue.updateAssumedReceiverState now rto).AtEnd := by
  have some_state := queue.inRange
  rcases freshWalk_all_or_none now rto queue.sentStates.tail
    (ordered.sublist (List.tail_sublist _)) with none | ⟨whole, -⟩
  · exact .inl none
  · right
    show freshWalk now rto queue.sentStates.tail + 1 = queue.sentStates.length
    rw [whole, List.length_tail]
    omega

/-- A state other than the oldest is assumed only while the newest one is in doubt. -/
theorem updateAssumedReceiverState_fresh (queue : SentQueue S) (now rto : Nat)
    (ordered : queue.sentStates.Pairwise fun earlier later => earlier.timestamp ≤ later.timestamp) :
    (queue.updateAssumedReceiverState now rto).assumedReceiver = 0 ∨
      now - queue.back.timestamp < rto + ackDelayMs := by
  rcases freshWalk_all_or_none now rto queue.sentStates.tail
    (ordered.sublist (List.tail_sublist _)) with none | ⟨whole, all⟩
  · exact .inl none
  · by_cases single : queue.sentStates.tail = []
    · left
      show freshWalk now rto queue.sentStates.tail = 0
      rw [single]
      rfl
    · right
      have last : queue.sentStates.tail.getLast single = queue.back := List.getLast_tail single
      exact all _ (last ▸ List.getLast_mem single)

/-- What an append to a queue that is within its cap does: a cull takes one state out of the middle, and
    the assumed state is still the one it was. -/
structure CullsMiddle (queue : SentQueue S) (added : TimestampedState S) : Prop where
  room : queue.sentStates.length < sentQueueCap →
    (queue.addSentState added.timestamp added.num added.state).sentStates = queue.sentStates ++ [added]
  cull : sentQueueCap ≤ queue.sentStates.length → ∃ idx,
    idx = (queue.sentStates ++ [added]).length - 16 ∧ 0 < idx ∧
      idx + 15 < (queue.sentStates ++ [added]).length ∧ queue.assumedReceiver ≠ idx ∧
      (queue.addSentState added.timestamp added.num added.state).sentStates =
        (queue.sentStates ++ [added]).eraseIdx idx
  kept : (queue.addSentState added.timestamp added.num added.state).assumed = queue.assumed

theorem assumed_eq_getElem? (queue : SentQueue S) :
    queue.sentStates[queue.assumedReceiver]? = some queue.assumed :=
  List.getElem?_eq_getElem queue.inRange

theorem assumed_of_getElem? {queue : SentQueue S} {s : TimestampedState S}
    (found : queue.sentStates[queue.assumedReceiver]? = some s) : queue.assumed = s := by
  rw [assumed_eq_getElem?] at found
  exact Option.some.inj found

theorem cullsMiddle (queue : SentQueue S) (atEnd : queue.AtEnd) (capped : queue.sentStates.length ≤ sentQueueCap)
    (added : TimestampedState S) : queue.CullsMiddle added := by
  have held := queue.assumed_eq_getElem?
  have inRange := queue.inRange
  have pushed : (queue.sentStates ++ [added])[queue.assumedReceiver]? = some queue.assumed := by
    rw [List.getElem?_append_left inRange, held]
  have size : (queue.sentStates ++ [added]).length = queue.sentStates.length + 1 := by
    rw [List.length_append, List.length_singleton]
  have states := queue.addSentState_sentStates added.timestamp added.num added.state
  rw [show (⟨added.timestamp, added.num, added.state⟩ : TimestampedState S) = added from rfl, cull, size] at states
  refine ⟨fun room => ?_, fun full => ?_, ?_⟩
  · rw [states, if_neg (by omega)]
  · rw [if_pos (by omega)] at states
    refine ⟨_, rfl, ?_, ?_, ?_, ?_⟩
    · rw [size]
      simp only [sentQueueCap] at full
      omega
    · rw [size]
      simp only [sentQueueCap] at full
      omega
    · rw [size]
      simp only [sentQueueCap] at full capped
      rcases atEnd with zero | last <;> omega
    · rw [states, size]
  · have index := queue.addSentState_assumedReceiver added.timestamp added.num added.state
    apply assumed_of_getElem?
    by_cases full : sentQueueCap < queue.sentStates.length + 1
    · rw [if_pos full] at states index
      simp only [sentQueueCap] at full capped
      rcases atEnd with zero | last
      · rw [if_neg (by omega), if_neg (by omega)] at index
        rw [states, index, List.getElem?_eraseIdx_of_lt (by omega)]
        exact pushed
      · rw [if_pos (by omega)] at index
        rw [states, index, List.getElem?_eraseIdx_of_ge (by omega),
          show queue.assumedReceiver - 1 + 1 = queue.assumedReceiver by omega]
        exact pushed
    · rw [if_neg full] at states index
      rw [states, index]
      exact pushed

end SentQueue

namespace SspSender

variable {S : Type} [SspSentState S]

theorem rationalizeStates_queue (sender : SspSender S) :
    sender.rationalizeStates.queue.assumedReceiver = sender.queue.assumedReceiver ∧
      sender.rationalizeStates.queue.stamps = sender.queue.stamps := by
  unfold rationalizeStates
  split
  · exact ⟨rfl, rfl⟩
  · refine ⟨rfl, ?_⟩
    simp only [SentQueue.stamps, SentQueue.mapStates, List.map_map]
    rfl

theorem prepared_stamps (sender : SspSender S) (now rto : Nat) :
    (sender.prepared now rto).queue.stamps = sender.queue.stamps :=
  (rationalizeStates_queue _).2

theorem prepared_back (sender : SspSender S) (now rto : Nat) :
    (sender.prepared now rto).queue.back.stamp = sender.queue.back.stamp := by
  have backs := (sender.prepared now rto).queue.stamps_back
  rw [prepared_stamps, SentQueue.stamps_back] at backs
  exact (Option.some.inj backs).symm

end SspSender

theorem Stamped.requeued {sender : SspSender UserStream} {now : Nat} {inst : TransportInstruction}
    {states : List (TimestampedState UserStream)} (stamped : Stamped now sender.queue.stamps)
    (room : sender.shutdownInProgress = false → sender.queue.back.num < shutdownNum - 1)
    (requeued : Requeued sender now inst states) : Stamped now (states.map TimestampedState.stamp) := by
  cases requeued with
  | appended num =>
    rw [SentQueue.cull_map, List.map_append]
    refine stamped.append fun stamp member => ?_
    dsimp only
    rw [num]
    by_cases shutting : sender.shutdownInProgress = true
    · rw [if_pos shutting]
      by_cases last : stamp.2 = shutdownNum
      · exact .inr ⟨last, rfl⟩
      · left
        simp only [shutdownNum] at last ⊢
        grind
    · rw [if_neg shutting]
      have below := room (Bool.eq_false_iff.mpr shutting)
      have nums := stamped.nums
      rw [sender.queue.stamps_split] at member nums
      have order := (History.pairwise_snoc.mp nums).2
      left
      rcases History.mem_snoc.mp member with old | rfl
      · have before := order stamp old
        simp only [TimestampedState.stamp, shutdownNum] at before below ⊢
        grind
      · simp only [TimestampedState.stamp, shutdownNum] at below ⊢
        grind
  | refreshed num carries settled =>
    have refreshed := stamped.refresh sender.queue.stamps_split
    rw [SentQueue.refreshBack, List.map_append]
    exact refreshed

namespace SenderConfig

variable {zlib : Zlib} {config : SenderConfig}

theorem tick_stamped (stamped : Stamped config.clock config.sender.queue.stamps) {now : Nat}
    (rto sendInterval mtu : Nat) (allowed : config.allowed (.tick now rto sendInterval mtu)) :
    Stamped now (config.tick zlib now rto sendInterval mtu).sender.queue.stamps := by
  obtain ⟨forward, room⟩ := allowed
  have kept := config.sender.prepared_stamps now rto
  have nums := (congrArg Prod.snd (config.sender.prepared_back now rto)).symm
  obtain ⟨-, -, -, outcome⟩ := config.sender.tick_due zlib now rto sendInterval mtu config.fragmenter
  have current := stamped.later forward
  rw [← kept] at current
  rw [show config.sender.queue.back.num = (config.sender.prepared now rto).queue.back.num from nums,
    ← (config.sender.prepared_fields now rto).1] at room
  unfold SenderConfig.tick SentQueue.stamps
  rcases outcome with ⟨-, -, same⟩ | ⟨base, inst, -, requeued, -⟩
  · rw [same]
    exact current
  · exact current.requeued room requeued

theorem next_stamped (stamped : Stamped config.clock config.sender.queue.stamps) (action : SenderAction)
    (allowed : config.allowed action) :
    Stamped (config.next zlib action).clock (config.next zlib action).sender.queue.stamps := by
  cases action with
  | pushBytes bytes => exact stamped
  | pushResize width height => exact stamped
  | startShutdown now =>
    refine Stamped.later ?_ allowed
    simp only [SenderConfig.next, SspSender.startShutdown]
    split <;> exact stamped
  | acknowledge ack =>
    refine stamped.sublist ?_
    unfold SenderConfig.next SspSender.processAcknowledgmentThrough SentQueue.processAcknowledgmentThrough
    dsimp only
    split
    · exact (List.filter_sublist).map _
    · exact List.Sublist.refl _
  | setAckNum ack => exact stamped
  | setDataAck => exact stamped
  | remoteHeard ts => exact stamped
  | waitTime now rto sendInterval => exact stamped.later allowed
  | tick now rto sendInterval mtu => exact tick_stamped stamped rto sendInterval mtu allowed

theorem reachable_stamped {start sendMindelay : Nat}
    (reached : (senderMachine zlib start sendMindelay).Reachable config) :
    Stamped config.clock config.sender.queue.stamps := by
  refine reached.invariant (motive := fun config => Stamped config.clock config.sender.queue.stamps) ?_ ?_
  · refine ⟨Nat.le_add_left 1 31, List.pairwise_singleton _ _, List.pairwise_singleton _ _,
      fun stamp member => ?_⟩
    rw [List.mem_singleton.mp member]
    exact Nat.le_refl _
  · intro config action _ stamped allowed
    exact next_stamped stamped action allowed

/-- The queue of unacknowledged states, as every step of the sender leaves it. -/
structure QueueInvariant (config : SenderConfig) : Prop where
  size : 1 ≤ config.sender.queue.sentStates.length ∧ config.sender.queue.sentStates.length ≤ sentQueueCap
  nums : config.sender.queue.sentStates.Pairwise fun earlier later =>
    earlier.num < later.num ∨ earlier.num = shutdownNum ∧ later.num = shutdownNum
  timestamps : config.sender.queue.sentStates.Pairwise fun earlier later => earlier.timestamp ≤ later.timestamp
  streams : config.sender.queue.sentStates.Pairwise fun earlier later =>
    earlier.state.events <+: later.state.events
  current : ∀ s ∈ config.sender.queue.sentStates, s.state.events <+: config.sender.currentState.events
  assumed : config.sender.queue.assumedReceiver < config.sender.queue.sentStates.length

theorem reachable_queue {start sendMindelay : Nat}
    (reached : (senderMachine zlib start sendMindelay).Reachable config) : config.QueueInvariant := by
  have stamped := reachable_stamped reached
  obtain ⟨base, queued, chronicle, rebased⟩ := (reachable_sound reached).traced
  obtain ⟨streams, current⟩ := rebased.nested chronicle
  obtain ⟨capped, times, nums, -⟩ := stamped
  rw [SentQueue.stamps_length] at capped
  rw [SentQueue.stamps, List.pairwise_map] at times nums
  exact ⟨⟨Nat.zero_lt_of_lt config.sender.queue.inRange, capped⟩, nums, times, streams, current,
    config.sender.queue.inRange⟩

theorem QueueInvariant.newest (queue : config.QueueInvariant) :
    ∀ s ∈ config.sender.queue.sentStates, s.num ≤ config.sender.queue.back.num := by
  have split : config.sender.queue.sentStates.dropLast ++ [config.sender.queue.back] =
      config.sender.queue.sentStates := List.dropLast_append_getLast config.sender.queue.nonempty
  have nums := queue.nums
  intro s member
  rw [← split] at nums member
  rcases History.mem_snoc.mp member with old | rfl
  · rcases (History.pairwise_snoc.mp nums).2 s old with less | ⟨shut, shutToo⟩
    · exact UInt64.le_of_lt less
    · exact UInt64.le_of_eq (shut.trans shutToo.symm)
  · exact UInt64.le_refl _

theorem front_num_le (sound : config.Sound zlib) (action : SenderAction) (allowed : config.allowed action) :
    config.sender.queue.front.num ≤ (config.next zlib action).sender.queue.front.num := by
  cases action with
  | acknowledge ack =>
    obtain ⟨base, queued, chronicle, rebased⟩ := sound.traced
    have after := rebased.acknowledge ack
    have head := after.front
    by_cases known : queued.any fun entry => entry.1 = ack
    · rw [if_pos known] at head
      obtain ⟨before, same⟩ := chronicle.acknowledged_front known head rebased.front
      exact UInt64.le_trans before (UInt64.le_of_eq same.symm)
    · rw [if_neg known, rebased.front] at head
      exact UInt64.le_of_eq (congrArg Prod.fst (Option.some.inj head))
  | tick now rto sendInterval mtu =>
    exact UInt64.le_of_eq (tick_step sound now rto sendInterval mtu allowed.2).2.1.symm
  | startShutdown now =>
    simp only [SenderConfig.next, SspSender.startShutdown]
    split <;> exact UInt64.le_refl _
  | pushBytes bytes => exact UInt64.le_refl _
  | pushResize width height => exact UInt64.le_refl _
  | setAckNum ack => exact UInt64.le_refl _
  | setDataAck => exact UInt64.le_refl _
  | remoteHeard ts => exact UInt64.le_refl _
  | waitTime now rto sendInterval => exact UInt64.le_refl _

theorem based_cullsMiddle (queue : config.QueueInvariant) (now rto sendInterval : Nat)
    (added : TimestampedState UserStream) :
    (config.sender.based now rto sendInterval).queue.CullsMiddle added := by
  obtain ⟨index, stamps⟩ := (config.sender.updateAssumedReceiverState now rto).rationalizeStates_queue
  have size := congrArg List.length stamps
  rw [SentQueue.stamps_length, SentQueue.stamps_length] at size
  have length : (config.sender.prepared now rto).queue.sentStates.length =
      config.sender.queue.sentStates.length := size
  have atEnd := config.sender.queue.updateAssumedReceiverState_atEnd now rto queue.timestamps
  have prepared : (config.sender.prepared now rto).queue.AtEnd := by
    unfold SentQueue.AtEnd at atEnd ⊢
    rw [length, show (config.sender.prepared now rto).queue.assumedReceiver = _ from index]
    exact atEnd
  have capped := queue.size.2
  rw [← length] at capped
  rcases config.sender.based_cases now rto sendInterval with same | front
  · rw [same]
    exact SentQueue.cullsMiddle _ prepared capped added
  · rw [front]
    exact (config.sender.prepared now rto).queue.assumeFront.cullsMiddle (.inl rfl) capped added

end SenderConfig

open SenderConfig

/-- The sender's queue over every run: its order and bounds, a front that only advances, and culls that
    never touch the state the peer is taken to hold. -/
theorem sender_queue_invariant (zlib : Zlib) (start sendMindelay : Nat) (config : SenderConfig)
    (reached : (senderMachine zlib start sendMindelay).Reachable config) :
    config.QueueInvariant ∧
      (∀ action, config.allowed action →
        config.sender.queue.front.num ≤ (config.next zlib action).sender.queue.front.num) ∧
      ∀ now rto sendInterval, config.clock ≤ now →
        (config.sender.updateAssumedReceiverState now rto).queue.AtEnd ∧
          ∀ added, (config.sender.based now rto sendInterval).queue.CullsMiddle added := by
  have queue := reachable_queue reached
  refine ⟨queue, front_num_le (reachable_sound reached), fun now rto sendInterval _ => ⟨?_, ?_⟩⟩
  · exact config.sender.queue.updateAssumedReceiverState_atEnd now rto queue.timestamps
  · exact based_cullsMiddle queue now rto sendInterval

/-- Two minutes of keepalive ticks, none of them acknowledged. -/
def unackedKeepalives : List SenderAction :=
  (List.range 40).map fun turn => .tick (3000 * turn + 3000) 1000 250 500

theorem sender_queue_invariant_keepalives :
    let config := unackedKeepalives.foldl (senderMachine sampleZlib 0 1).next (start 0 1)
    config.sender.queue.stamps.map (fun stamp => stamp.2.toNat) =
        List.range 17 ++ (List.range 15).map (· + 26) ∧ config.QueueInvariant :=
  ⟨by decide +kernel, (sender_queue_invariant sampleZlib 0 1 _
    ⟨unackedKeepalives, Machine.Run.start.follow (by decide +kernel)⟩).1⟩

end MoshModel
