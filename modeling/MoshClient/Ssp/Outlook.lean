import MoshClient.Ssp.DueTicks
import MoshClient.Ssp.FullLog

namespace MoshModel

namespace SentQueue

variable {S : Type} {queue : SentQueue S} {now rto : Nat}

theorem freshWalk_fresh {states : List (TimestampedState S)}
    (fresh : ∀ s ∈ states, now - s.timestamp < rto + ackDelayMs) : freshWalk now rto states = states.length := by
  induction states with
  | nil => rfl
  | cons s rest ih =>
    obtain ⟨first, others⟩ := List.forall_mem_cons.mp fresh
    rw [freshWalk, if_pos first, ih others, List.length_cons]

theorem assumed_of_last (last : queue.assumedReceiver + 1 = queue.sentStates.length) :
    queue.assumed = queue.back := by
  have position : queue.sentStates.length - 1 = queue.assumedReceiver := by omega
  simp only [assumed, back, List.getLast_eq_getElem, position, List.get_eq_getElem]

theorem updateAssumedReceiverState_trusting
    (fresh : ∀ s ∈ queue.sentStates.tail, now - s.timestamp < rto + ackDelayMs) :
    (queue.updateAssumedReceiverState now rto).assumedReceiver + 1 = queue.sentStates.length := by
  have some_state := queue.inRange
  show freshWalk now rto queue.sentStates.tail + 1 = queue.sentStates.length
  rw [freshWalk_fresh fresh, List.length_tail]
  omega

theorem updateAssumedReceiverState_doubting
    (ordered : queue.sentStates.Pairwise fun earlier later => earlier.timestamp ≤ later.timestamp)
    {s : TimestampedState S} (stored : s ∈ queue.sentStates.tail) (stale : rto + ackDelayMs ≤ now - s.timestamp) :
    (queue.updateAssumedReceiverState now rto).assumedReceiver = 0 := by
  rcases freshWalk_all_or_none now rto queue.sentStates.tail
    (ordered.sublist (List.tail_sublist _)) with none | ⟨-, all⟩
  · exact none
  · exact absurd (all s stored) (Nat.not_lt_of_le stale)

theorem back_mem_tail (longer : 1 < queue.sentStates.length) : queue.back ∈ queue.sentStates.tail := by
  have some_left : queue.sentStates.tail ≠ [] := by
    apply List.ne_nil_of_length_pos
    rw [List.length_tail]
    omega
  have last : queue.sentStates.tail.getLast some_left = queue.back := List.getLast_tail some_left
  exact last ▸ List.getLast_mem some_left

theorem length_of_ends (apart : queue.front ≠ queue.back) : 1 < queue.sentStates.length := by
  by_contra single
  have one : queue.sentStates.length = 1 := by
    have := queue.inRange
    omega
  obtain ⟨s, only⟩ := List.length_eq_one_iff.mp one
  apply apart
  simp only [front, back, only, List.head_cons, List.getLast_singleton]

end SentQueue

/-- Everything that decides when a tick has something to send. -/
structure Outlook where
  level : Prop
  held : Prop
  sent : Nat
  later : List Nat
  mindelayClock : Option Nat
  sendMindelay : Nat
  lastHeard : Nat
  nextAckTime : Nat
  pendingDataAck : Bool
  closing : Prop

namespace Outlook

/-- A state sent after the oldest one has outlived the benefit of the doubt. -/
def Stale (outlook : Outlook) (rto t : Nat) : Prop := ∃ sent ∈ outlook.later, sent + rto + ackDelayMs ≤ t

/-- Fresh data waits for the mindelay, a retry for the first state to be stale. -/
structure SendDue (outlook : Outlook) (rto sendInterval t : Nat) : Prop where
  spaced : outlook.sent + sendInterval ≤ t
  delayed : ∀ clock ∈ outlook.mindelayClock, clock + outlook.sendMindelay ≤ t
  fresh : ¬outlook.level → outlook.mindelayClock.getD t + outlook.sendMindelay ≤ t
  retry : outlook.level → ¬outlook.held ∧ outlook.Stale rto t ∧ t < outlook.lastHeard + activeRetryTimeoutMs

def AckDue (outlook : Outlook) (sendInterval t : Nat) : Prop :=
  (outlook.closing → outlook.sent + sendInterval ≤ t) ∧ (¬outlook.closing → outlook.nextAckTime ≤ t)

/-- A pass over the timers at `t` has nothing left to set. -/
structure Settled (outlook : Outlook) (sendInterval t : Nat) : Prop where
  clock : ¬outlook.level → outlook.mindelayClock ≠ none
  closed : outlook.closing → outlook.nextAckTime = outlook.sent + sendInterval
  hurried : ¬outlook.closing → outlook.pendingDataAck = true → outlook.nextAckTime ≤ t + ackDelayMs

theorem Settled.later {outlook : Outlook} {sendInterval now t : Nat} (settled : outlook.Settled sendInterval now)
    (after : now ≤ t) : outlook.Settled sendInterval t := by
  obtain ⟨clock, closed, hurried⟩ := settled
  refine ⟨clock, closed, fun going pending => ?_⟩
  have := hurried going pending
  omega

end Outlook

namespace SspSender

section Timers

variable {S T : Type}

def outlook (sender : SspSender S) : Outlook :=
  { level := sender.currentState = sender.queue.back.state
    held := sender.currentState = sender.queue.front.state
    sent := sender.queue.back.timestamp
    later := sender.queue.sentStates.tail.map TimestampedState.timestamp
    mindelayClock := sender.mindelayClock
    sendMindelay := sender.sendMindelay
    lastHeard := sender.lastHeard
    nextAckTime := sender.nextAckTime
    pendingDataAck := sender.pendingDataAck
    closing := sender.Closing }

theorem outlook_map (sender : SspSender S) {f : S → T} (injective : Function.Injective f) :
    (sender.map f).outlook = sender.outlook := by
  have level : (f sender.currentState = (sender.queue.map f).back.state) =
      (sender.currentState = sender.queue.back.state) := by
    rw [SentQueue.map_back]
    exact propext injective.eq_iff
  have held : (f sender.currentState = (sender.queue.map f).front.state) =
      (sender.currentState = sender.queue.front.state) := by
    rw [SentQueue.map_front]
    exact propext injective.eq_iff
  have sent : (sender.queue.map f).back.timestamp = sender.queue.back.timestamp := by
    rw [SentQueue.map_back]
    rfl
  have later : (sender.queue.map f).sentStates.tail.map TimestampedState.timestamp =
      sender.queue.sentStates.tail.map TimestampedState.timestamp := by
    simp only [SentQueue.map, List.map_tail, List.map_map]
    rfl
  unfold outlook
  simp only [Outlook.mk.injEq]
  exact ⟨level, held, sent, later, rfl, rfl, rfl, rfl, rfl, rfl⟩

theorem length_of_unacked {sender : SspSender S} (level : sender.currentState = sender.queue.back.state)
    (unacked : sender.currentState ≠ sender.queue.front.state) : 1 < sender.queue.sentStates.length := by
  apply SentQueue.length_of_ends
  intro same
  exact unacked (level.trans (congrArg TimestampedState.state same.symm))

variable [DecidableEq S]

theorem computeTimers_settled (sender : SspSender S) (now rto sendInterval : Nat) :
    (sender.computeTimers now rto sendInterval).2.outlook.Settled sendInterval now := by
  obtain ⟨-, closing, going⟩ := sender.computeTimers_deadline now rto sendInterval
  refine ⟨fun ahead => ?_, closing, fun open_ pending => ?_⟩
  · show (if sender.currentState ≠ sender.queue.back.state ∧ sender.mindelayClock = none
      then some now else sender.mindelayClock) ≠ none
    split
    · exact Option.some_ne_none now
    · rename_i running
      exact fun unset => running ⟨ahead, unset⟩
  · have deadline := going open_
    have prompt := sender.hurriedAck_prompt now pending
    show (sender.computeTimers now rto sendInterval).2.nextAckTime ≤ now + ackDelayMs
    omega

theorem computeTimers_outlook {sender : SspSender S} {now sendInterval : Nat}
    (settled : sender.outlook.Settled sendInterval now) (rto : Nat) :
    (sender.computeTimers now rto sendInterval).2.outlook = sender.outlook := by
  obtain ⟨-, closing, going⟩ := sender.computeTimers_deadline now rto sendInterval
  have clock : (sender.computeTimers now rto sendInterval).2.mindelayClock = sender.mindelayClock := by
    refine if_neg ?_
    rintro ⟨ahead, unset⟩
    exact settled.clock ahead unset
  have ack : (sender.computeTimers now rto sendInterval).2.nextAckTime = sender.nextAckTime := by
    by_cases shut : sender.Closing
    · exact (closing shut).trans (settled.closed shut).symm
    · rw [going shut]
      refine if_neg ?_
      rintro ⟨pending, late⟩
      have prompt : sender.nextAckTime ≤ now + ackDelayMs := settled.hurried shut pending
      omega
  unfold outlook
  simp only [Outlook.mk.injEq]
  exact ⟨rfl, rfl, rfl, rfl, clock, rfl, rfl, ack, rfl, rfl⟩

theorem nextSend_ahead {sender : SspSender S} (ahead : sender.currentState ≠ sender.queue.back.state)
    (now rto sendInterval : Nat) :
    (sender.computeTimers now rto sendInterval).1.1 =
      some (max (sender.mindelayClock.getD now + sender.sendMindelay)
        (sender.queue.back.timestamp + sendInterval)) := by
  simp only [computeTimers, if_pos ahead]
  cases clock : sender.mindelayClock with
  | none => simp only [ahead, ne_eq, not_false_eq_true, and_self, if_true, Option.getD_none]
  | some m => simp only [reduceCtorEq, and_false, if_false, Option.getD_some]

theorem nextSend_behind {sender : SspSender S} (level : sender.currentState = sender.queue.back.state)
    {now : Nat} (behind : sender.currentState ≠ sender.queue.assumed.state ∧
      now < sender.lastHeard + activeRetryTimeoutMs) (rto sendInterval : Nat) :
    (sender.computeTimers now rto sendInterval).1.1 =
      some (max (sender.queue.back.timestamp + sendInterval)
        (sender.mindelayClock.elim 0 (· + sender.sendMindelay))) := by
  have settled : ¬sender.currentState ≠ sender.queue.back.state := not_not_intro level
  simp only [computeTimers, if_pos behind, settled, false_and, if_false]
  cases clock : sender.mindelayClock with
  | none => simp only [Option.elim_none, Nat.max_zero]
  | some m => simp only [Option.elim_some]

theorem nextSend_retry {sender : SspSender S} (level : sender.currentState = sender.queue.back.state)
    {now : Nat} (trusted : ¬(sender.currentState ≠ sender.queue.assumed.state ∧
      now < sender.lastHeard + activeRetryTimeoutMs)) (rto sendInterval : Nat) :
    (sender.computeTimers now rto sendInterval).1.1 =
      if 1 < sender.queue.sentStates.length ∧ sender.currentState ≠ sender.queue.front.state ∧
          now < sender.lastHeard + activeRetryTimeoutMs then
        some (sender.queue.back.timestamp + rto + ackDelayMs)
      else none := by
  have settled : ¬sender.currentState ≠ sender.queue.back.state := not_not_intro level
  simp only [computeTimers, if_neg settled, if_neg trusted]

theorem mindelay_iff (clock : Option Nat) (delay t : Nat) :
    (∀ m ∈ clock, m + delay ≤ t) ↔ clock.elim 0 (· + delay) ≤ t := by
  cases clock <;> simp

theorem due_ahead {sender : SspSender S} (ahead : sender.currentState ≠ sender.queue.back.state)
    (rto sendInterval t : Nat) :
    (∃ due, (sender.computeTimers t rto sendInterval).1.1 = some due ∧ due ≤ t) ↔
      sender.outlook.SendDue rto sendInterval t := by
  rw [nextSend_ahead ahead t rto sendInterval]
  constructor
  · rintro ⟨due, scheduled, reached⟩
    obtain rfl := Option.some.inj scheduled
    obtain ⟨waited, spaced⟩ := Nat.max_le.mp reached
    refine ⟨spaced, fun clock running => ?_, fun _ => waited, fun level => absurd level ahead⟩
    have started : sender.mindelayClock = some clock := running
    rw [started] at waited
    exact waited
  · intro due
    exact ⟨_, rfl, Nat.max_le.mpr ⟨due.fresh ahead, due.spaced⟩⟩

theorem due_doubting {sender : SspSender S} (level : sender.currentState = sender.queue.back.state)
    {rto t : Nat} (stale : sender.outlook.Stale rto t) (front : sender.queue.assumed = sender.queue.front)
    (sendInterval : Nat) :
    (∃ due, (sender.computeTimers t rto sendInterval).1.1 = some due ∧ due ≤ t) ↔
      sender.outlook.SendDue rto sendInterval t := by
  have delayed := mindelay_iff sender.mindelayClock sender.sendMindelay t
  by_cases behind : sender.currentState ≠ sender.queue.assumed.state ∧
      t < sender.lastHeard + activeRetryTimeoutMs
  · rw [nextSend_behind level behind rto sendInterval]
    rw [front] at behind
    constructor
    · rintro ⟨due, scheduled, reached⟩
      obtain rfl := Option.some.inj scheduled
      obtain ⟨spaced, waited⟩ := Nat.max_le.mp reached
      exact ⟨spaced, delayed.mpr waited, fun ahead => absurd level ahead, fun _ => ⟨behind.1, stale, behind.2⟩⟩
    · intro due
      exact ⟨_, rfl, Nat.max_le.mpr ⟨due.spaced, delayed.mp due.delayed⟩⟩
  · rw [nextSend_retry level behind rto sendInterval, if_neg fun retry => behind ⟨front ▸ retry.2.1, retry.2.2⟩]
    constructor
    · rintro ⟨due, scheduled, -⟩
      cases scheduled
    · intro due
      obtain ⟨unheld, -, heard⟩ := due.retry level
      exact absurd ⟨front ▸ unheld, heard⟩ behind

theorem due_trusting {sender : SspSender S} (level : sender.currentState = sender.queue.back.state)
    {rto t : Nat} (fresh : ¬sender.outlook.Stale rto t) (back : sender.queue.assumed = sender.queue.back)
    (sendInterval : Nat) :
    (∃ due, (sender.computeTimers t rto sendInterval).1.1 = some due ∧ due ≤ t) ↔
      sender.outlook.SendDue rto sendInterval t := by
  have trusted : ¬(sender.currentState ≠ sender.queue.assumed.state ∧
      t < sender.lastHeard + activeRetryTimeoutMs) := fun behind => behind.1 (back ▸ level)
  rw [nextSend_retry level trusted rto sendInterval]
  constructor
  · rintro ⟨due, scheduled, reached⟩
    split at scheduled
    · rename_i retry
      obtain rfl := Option.some.inj scheduled
      exact absurd ⟨_, List.mem_map_of_mem (SentQueue.back_mem_tail retry.1), reached⟩ fresh
    · cases scheduled
  · intro due
    exact absurd (due.retry level).2.1 fresh

end Timers

section Streams

variable {sender : SspSender UserStream}

/-- The passes that prepare a tick leave the outlook as it is. -/
theorem Nested.prepared_outlook (nested : sender.Nested) (now rto : Nat) :
    (sender.prepared now rto).outlook = sender.outlook := by
  obtain ⟨longer, same⟩ := prepared_above nested [] now rto
  have full : ((sender.map (FullLog.above [])).prepared now rto).outlook =
      (sender.map (FullLog.above [])).outlook := by
    rw [prepared, rationalizeStates_full]
    rfl
  rw [← outlook_map _ (FullLog.above_embeds longer).injective, ← same, full,
    outlook_map _ (FullLog.above_embeds []).injective]

theorem prepared_placed
    (ordered : sender.queue.sentStates.Pairwise fun earlier later => earlier.timestamp ≤ later.timestamp)
    (now rto : Nat) :
    (sender.outlook.Stale rto now ∧
        (sender.prepared now rto).queue.assumed = (sender.prepared now rto).queue.front) ∨
      (¬sender.outlook.Stale rto now ∧
        (sender.prepared now rto).queue.assumed = (sender.prepared now rto).queue.back) := by
  obtain ⟨index, stamps⟩ := (sender.updateAssumedReceiverState now rto).rationalizeStates_queue
  by_cases stale : sender.outlook.Stale rto now
  · left
    obtain ⟨sent, listed, old⟩ := stale
    obtain ⟨s, stored, rfl⟩ := List.mem_map.mp listed
    have doubting : (sender.queue.updateAssumedReceiverState now rto).assumedReceiver = 0 := by
      apply SentQueue.updateAssumedReceiverState_doubting ordered stored
      simp only [ackDelayMs] at old ⊢
      omega
    exact ⟨⟨_, listed, old⟩, SentQueue.assumed_of_zero (index.trans doubting)⟩
  · right
    have trusting : (sender.queue.updateAssumedReceiverState now rto).assumedReceiver + 1 =
        sender.queue.sentStates.length := by
      apply SentQueue.updateAssumedReceiverState_trusting
      intro s stored
      by_contra late
      refine stale ⟨_, List.mem_map_of_mem stored, ?_⟩
      simp only [ackDelayMs] at late ⊢
      omega
    have length := congrArg List.length stamps
    rw [SentQueue.stamps_length, SentQueue.stamps_length] at length
    refine ⟨stale, SentQueue.assumed_of_last ?_⟩
    unfold prepared
    rw [index, length]
    exact trusting

theorem Nested.dueSend_iff (nested : sender.Nested)
    (ordered : sender.queue.sentStates.Pairwise fun earlier later => earlier.timestamp ≤ later.timestamp)
    (t rto sendInterval : Nat) :
    sender.dueSend t rto sendInterval = true ↔ sender.outlook.SendDue rto sendInterval t := by
  have same := nested.prepared_outlook t rto
  have placed := prepared_placed ordered t rto
  have due : sender.dueSend t rto sendInterval = true ↔ ∃ due,
      ((sender.prepared t rto).computeTimers t rto sendInterval).1.1 = some due ∧ due ≤ t := by
    unfold dueSend timers
    simp only [Option.any_eq_true, decide_eq_true_eq]
  rw [← same] at placed ⊢
  rw [due]
  by_cases level : (sender.prepared t rto).currentState = (sender.prepared t rto).queue.back.state
  · rcases placed with ⟨stale, front⟩ | ⟨fresh, back⟩
    · exact due_doubting level stale front sendInterval
    · exact due_trusting level fresh back sendInterval
  · exact due_ahead level rto sendInterval t

theorem Nested.dueAck_iff (nested : sender.Nested) (t rto sendInterval : Nat) :
    sender.dueAck t rto sendInterval = true ↔ sender.outlook.AckDue sendInterval t := by
  have same := nested.prepared_outlook t rto
  obtain ⟨deadline, closing, going⟩ := (sender.prepared t rto).computeTimers_deadline t rto sendInterval
  have due : sender.dueAck t rto sendInterval = true ↔
      ((sender.prepared t rto).computeTimers t rto sendInterval).2.nextAckTime ≤ t := by
    unfold dueAck timers
    rw [deadline, Option.any_some, decide_eq_true_eq]
  rw [due, ← same]
  by_cases shut : (sender.prepared t rto).Closing
  · rw [closing shut]
    exact ⟨fun reached => ⟨fun _ => reached, fun going => absurd shut going⟩, fun ack => ack.1 shut⟩
  · rw [going shut]
    have lower := (sender.prepared t rto).le_hurriedAck t
    have upper := (sender.prepared t rto).hurriedAck_le t
    constructor
    · intro reached
      refine ⟨fun closed => absurd closed shut, fun _ => ?_⟩
      show (sender.prepared t rto).nextAckTime ≤ t
      simp only [ackDelayMs] at lower
      omega
    · intro ack
      exact Nat.le_trans upper (ack.2 shut)

end Streams

end SspSender

end MoshModel
