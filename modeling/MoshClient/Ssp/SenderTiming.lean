import MoshClient.Ssp.SenderSteps

namespace MoshModel

namespace SspSender

variable {S : Type}

def hurriedAck (sender : SspSender S) (now : Nat) : Nat :=
  if sender.pendingDataAck ∧ now + ackDelayMs < sender.nextAckTime then now + ackDelayMs
  else sender.nextAckTime

theorem hurriedAck_le (sender : SspSender S) (now : Nat) : sender.hurriedAck now ≤ sender.nextAckTime := by
  unfold hurriedAck
  split <;> omega

theorem le_hurriedAck (sender : SspSender S) (now : Nat) :
    min sender.nextAckTime (now + ackDelayMs) ≤ sender.hurriedAck now := by
  unfold hurriedAck
  split <;> omega

theorem hurriedAck_prompt (sender : SspSender S) (now : Nat) (pending : sender.pendingDataAck = true) :
    sender.hurriedAck now ≤ now + ackDelayMs := by
  simp only [hurriedAck, pending, true_and]
  split <;> omega

/-- The retries of the last state before a shutdown is through run on the send interval alone. -/
def Closing (sender : SspSender S) : Prop := sender.shutdownInProgress = true ∨ sender.ackNum = shutdownNum

variable [DecidableEq S]

theorem computeTimers_deadline (sender : SspSender S) (now rto sendInterval : Nat) :
    let timers := sender.computeTimers now rto sendInterval
    timers.1.2 = some timers.2.nextAckTime ∧
      (sender.Closing → timers.2.nextAckTime = sender.queue.back.timestamp + sendInterval) ∧
      (¬sender.Closing → timers.2.nextAckTime = sender.hurriedAck now) :=
  ⟨rfl, fun closing => if_pos closing, fun going => if_neg going⟩

theorem computeTimers_nextSend (sender : SspSender S) (now rto sendInterval t : Nat)
    (scheduled : (sender.computeTimers now rto sendInterval).1.1 = some t) :
    sender.queue.back.timestamp + min sendInterval (rto + ackDelayMs) ≤ t := by
  simp only [computeTimers] at scheduled
  split at scheduled
  · obtain rfl := Option.some.inj scheduled
    omega
  · split at scheduled
    · split at scheduled <;> obtain rfl := Option.some.inj scheduled <;> omega
    · split at scheduled
      · obtain rfl := Option.some.inj scheduled
        omega
      · cases scheduled

/-- Which comparison schedules a send: with the newest state, with the assumed one, or with the oldest,
    for a retry once the benefit of the doubt is over. -/
theorem computeTimers_reason (sender : SspSender S) (now rto sendInterval t : Nat)
    (scheduled : (sender.computeTimers now rto sendInterval).1.1 = some t) :
    sender.currentState ≠ sender.queue.back.state ∨ sender.currentState ≠ sender.queue.assumed.state ∨
      (sender.currentState = sender.queue.assumed.state ∧
        sender.currentState ≠ sender.queue.front.state ∧
        t = sender.queue.back.timestamp + rto + ackDelayMs) := by
  by_cases ahead : sender.currentState ≠ sender.queue.back.state
  · exact .inl ahead
  · by_cases behind : sender.currentState ≠ sender.queue.assumed.state
    · exact .inr (.inl behind)
    · simp only [computeTimers, if_neg ahead, behind, false_and, if_false] at scheduled
      split at scheduled
      · rename_i retry
        exact .inr (.inr ⟨not_not.mp behind, retry.2.1, (Option.some.inj scheduled).symm⟩)
      · cases scheduled

theorem computeTimers_again (sender : SspSender S) (now rto sendInterval : Nat) :
    (sender.computeTimers now rto sendInterval).2.computeTimers now rto sendInterval =
      sender.computeTimers now rto sendInterval := by
  have ack : (if sender.pendingDataAck ∧ now + ackDelayMs < sender.hurriedAck now then now + ackDelayMs
      else sender.hurriedAck now) = sender.hurriedAck now := by
    refine if_neg ?_
    rintro ⟨pending, late⟩
    have := sender.hurriedAck_prompt now pending
    omega
  have clock : ∀ clock : Option Nat, (if sender.currentState ≠ sender.queue.back.state ∧
      (if sender.currentState ≠ sender.queue.back.state ∧ clock = none then some now else clock) = none
      then some now
      else if sender.currentState ≠ sender.queue.back.state ∧ clock = none then some now else clock) =
        if sender.currentState ≠ sender.queue.back.state ∧ clock = none then some now else clock := by
    intro clock
    split <;> simp_all
  unfold hurriedAck at ack
  unfold computeTimers
  dsimp only
  rw [clock]
  by_cases closing : sender.shutdownInProgress = true ∨ sender.ackNum = shutdownNum
  · simp only [if_pos closing]
  · simp only [if_neg closing, ack]

theorem lt_waitTime_iff (sender : SspSender S) (rto sendInterval : Nat) {now t : Nat} (later : now ≤ t) :
    t < now + (sender.waitTime now rto sendInterval).1 ↔
      t < (sender.computeTimers now rto sendInterval).2.nextAckTime ∧
        ∀ due, (sender.computeTimers now rto sendInterval).1.1 = some due → t < due := by
  have deadline := (sender.computeTimers_deadline now rto sendInterval).1
  unfold waitTime
  dsimp only
  generalize sender.computeTimers now rto sendInterval = timers at *
  obtain ⟨⟨nextSend, nextAck⟩, timed⟩ := timers
  dsimp only at deadline ⊢
  subst deadline
  cases nextSend with
  | none =>
    simp only [Option.or_some, Option.getD_none, reduceCtorEq, false_implies, implies_true, and_true]
    omega
  | some due =>
    simp only [Option.some.injEq, forall_eq']
    omega

theorem waitTime_pos (sender : SspSender S) (now rto sendInterval : Nat)
    (send : ∀ t, (sender.computeTimers now rto sendInterval).1.1 = some t → now < t)
    (ack : now < (sender.computeTimers now rto sendInterval).2.nextAckTime) :
    1 ≤ (sender.waitTime now rto sendInterval).1 := by
  have early := (sender.lt_waitTime_iff rto sendInterval (Nat.le_refl now)).mpr ⟨ack, send⟩
  omega

variable [SspSentState S]

def timers (sender : SspSender S) (now rto sendInterval : Nat) : (Option Nat × Option Nat) × SspSender S :=
  (sender.prepared now rto).computeTimers now rto sendInterval

def dueSend (sender : SspSender S) (now rto sendInterval : Nat) : Bool :=
  (sender.timers now rto sendInterval).1.1.any (· ≤ now)

def dueAck (sender : SspSender S) (now rto sendInterval : Nat) : Bool :=
  (sender.timers now rto sendInterval).1.2.any (· ≤ now)

/-- The diff of a due tick, and the sender as it goes to `send_empty_ack` or `send_to_receiver`. -/
def proposed (sender : SspSender S) (now rto sendInterval : Nat) : Bytes × SspSender S :=
  let timed := (sender.timers now rto sendInterval).2
  timed.attemptProspectiveResendOptimization
    (SspSentState.diffFrom timed.currentState timed.queue.assumed.state)

def based (sender : SspSender S) (now rto sendInterval : Nat) : SspSender S :=
  (sender.proposed now rto sendInterval).2

theorem based_cases (sender : SspSender S) (now rto sendInterval : Nat) :
    (sender.based now rto sendInterval).queue = (sender.prepared now rto).queue ∨
      (sender.based now rto sendInterval).queue = (sender.prepared now rto).queue.assumeFront := by
  have placed := ((sender.timers now rto
    sendInterval).2.attemptProspectiveResendOptimization_spec _ rfl).1
  unfold based proposed
  rcases placed with same | front
  · rw [same]
    exact .inl rfl
  · rw [front]
    exact .inr rfl

theorem tick_quiet (zlib : Zlib) (sender : SspSender S) (now rto sendInterval mtu : Nat)
    (fragmenter : Fragmenter) (noSend : sender.dueSend now rto sendInterval = false)
    (noAck : sender.dueAck now rto sendInterval = false) :
    sender.tick zlib now rto sendInterval mtu fragmenter =
      { sender := (sender.timers now rto sendInterval).2, fragmenter := fragmenter, sending := none } := by
  have quiet : (!sender.dueSend now rto sendInterval && !sender.dueAck now rto sendInterval) = true := by
    rw [noSend, noAck]
    rfl
  exact if_pos quiet

theorem tick_of_due (zlib : Zlib) (sender : SspSender S) (now rto sendInterval mtu : Nat)
    (fragmenter : Fragmenter)
    (due : sender.dueSend now rto sendInterval = true ∨ sender.dueAck now rto sendInterval = true) :
    sender.tick zlib now rto sendInterval mtu fragmenter =
      (sender.timers now rto sendInterval).2.sendDue zlib (sender.dueSend now rto sendInterval)
        (sender.dueAck now rto sendInterval) now mtu fragmenter := by
  have loud : ¬(!sender.dueSend now rto sendInterval && !sender.dueAck now rto sendInterval) = true := by
    rcases due with send | ack
    · simp [send]
    · simp [ack]
  exact if_neg loud

theorem sendDue_emits (zlib : Zlib) (sender : SspSender S) (dueSend dueAck : Bool) (now mtu : Nat)
    (fragmenter : Fragmenter)
    (carries : dueAck = true ∨ (sender.attemptProspectiveResendOptimization
      (SspSentState.diffFrom sender.currentState sender.queue.assumed.state)).1 ≠ []) :
    (sender.sendDue zlib dueSend dueAck now mtu fragmenter).sending.isSome = true := by
  unfold sendDue
  dsimp only
  generalize sender.attemptProspectiveResendOptimization
    (SspSentState.diffFrom sender.currentState sender.queue.assumed.state) = attempt at *
  obtain ⟨diff, based⟩ := attempt
  dsimp only at carries ⊢
  by_cases empty : diff.isEmpty = true
  · rw [if_pos empty]
    obtain rfl : dueAck = true := carries.resolve_right (not_not_intro (List.isEmpty_iff.mp empty))
    obtain ⟨inst, sent⟩ := based.sendEmptyAck_spec zlib now mtu fragmenter
    have sending := congrArg Option.isSome sent.sending
    cases dueSend <;> exact sending
  · rw [if_neg empty]
    obtain ⟨inst, sent⟩ := based.sendToReceiver_spec zlib now diff mtu fragmenter
      (mt List.isEmpty_iff.mpr empty)
    exact congrArg Option.isSome sent.sending

theorem tick_emits (zlib : Zlib) (sender : SspSender S) (now rto sendInterval mtu : Nat)
    (fragmenter : Fragmenter)
    (carries : sender.dueAck now rto sendInterval = true ∨
      sender.dueSend now rto sendInterval = true ∧ (sender.proposed now rto sendInterval).1 ≠ []) :
    (sender.tick zlib now rto sendInterval mtu fragmenter).sending.isSome = true := by
  rw [tick_of_due zlib sender now rto sendInterval mtu fragmenter (carries.symm.imp And.left id)]
  exact sendDue_emits zlib _ _ _ now mtu fragmenter (carries.imp id And.right)

theorem due_of_emits {zlib : Zlib} {sender : SspSender S} {now rto sendInterval mtu : Nat}
    {fragmenter : Fragmenter}
    (emits : (sender.tick zlib now rto sendInterval mtu fragmenter).sending.isSome = true) :
    sender.dueSend now rto sendInterval = true ∨ sender.dueAck now rto sendInterval = true := by
  by_contra quiet
  rw [not_or, Bool.not_eq_true, Bool.not_eq_true] at quiet
  rw [tick_quiet zlib sender now rto sendInterval mtu fragmenter quiet.1 quiet.2] at emits
  cases emits

theorem sendDue_nextAckTime (zlib : Zlib) (sender : SspSender S) (dueSend dueAck : Bool) (now mtu : Nat)
    (fragmenter : Fragmenter)
    (emits : (sender.sendDue zlib dueSend dueAck now mtu fragmenter).sending.isSome = true) :
    (sender.sendDue zlib dueSend dueAck now mtu fragmenter).sender.nextAckTime = now + ackIntervalMs := by
  unfold sendDue at emits ⊢
  dsimp only at emits ⊢
  generalize sender.attemptProspectiveResendOptimization
    (SspSentState.diffFrom sender.currentState sender.queue.assumed.state) = attempt at *
  obtain ⟨diff, based⟩ := attempt
  dsimp only at emits ⊢
  by_cases empty : diff.isEmpty = true
  · rw [if_pos empty] at emits ⊢
    cases dueAck with
    | true => cases dueSend <;> rfl
    | false => cases dueSend <;> cases emits
  · rw [if_neg empty]
    rfl

/-- What an emission leaves of the timers, and what it carries. -/
structure Emitted (sender : SspSender S) (now : Nat) (ticked : Ticked S) (sending : Sending) : Prop where
  nextAck : ticked.sender.nextAckTime = now + ackIntervalMs
  stamped : ticked.sender.queue.back.timestamp = now
  carried : sending.call.inst.ackNum = sender.ackNum

theorem tick_emitted (zlib : Zlib) (sender : SspSender S) (now rto sendInterval mtu : Nat)
    (fragmenter : Fragmenter) (sending : Sending)
    (emits : (sender.tick zlib now rto sendInterval mtu fragmenter).sending = some sending) :
    Emitted sender now (sender.tick zlib now rto sendInterval mtu fragmenter) sending := by
  obtain ⟨-, -, -, ⟨silent, -⟩ | ⟨base, inst, framed, requeued, sent, -⟩⟩ :=
    sender.tick_due zlib now rto sendInterval mtu fragmenter
  · rw [emits] at silent
    cases silent
  · refine ⟨?_, ?_, ?_⟩
    · have due := due_of_emits (Option.isSome_of_mem emits)
      rw [tick_of_due zlib sender now rto sendInterval mtu fragmenter due] at emits ⊢
      exact sendDue_nextAckTime zlib _ _ _ now mtu fragmenter (Option.isSome_of_mem emits)
    · exact requeued.newest.1
    · rw [sent] at emits
      rw [← Option.some.inj emits, Fragmenter.send_call]
      exact framed.ack.trans (sender.prepared_fields now rto).2

end SspSender

end MoshModel
