import MoshClient.Ssp.Sender

namespace MoshModel

namespace SentQueue

variable {S : Type}

def cull {Entry : Type} (states : List Entry) : List Entry :=
  if sentQueueCap < states.length then states.eraseIdx (states.length - 16) else states

theorem cull_map {Entry Info : Type} (states : List Entry) (view : Entry → Info) :
    (cull states).map view = cull (states.map view) := by
  unfold cull
  rw [List.length_map]
  split
  · simp only [List.eraseIdx_eq_take_drop_succ, List.map_append, List.map_take, List.map_drop]
  · rfl

theorem cull_sublist {Entry : Type} (states : List Entry) : (cull states).Sublist states := by
  unfold cull
  split
  · exact List.eraseIdx_sublist _ _
  · exact List.Sublist.refl _

theorem cull_head? {Entry : Type} (states : List Entry) : (cull states).head? = states.head? := by
  unfold cull
  split
  · rename_i overfull
    simp only [sentQueueCap] at overfull
    cases states with
    | nil => rfl
    | cons s rest =>
      obtain ⟨index, position⟩ : ∃ index, (s :: rest).length - 16 = index + 1 :=
        ⟨(s :: rest).length - 17, by omega⟩
      rw [position]
      rfl
  · rfl

theorem cull_getLast? {Entry : Type} (states : List Entry) :
    (cull states).getLast? = states.getLast? := by
  unfold cull
  split
  · rename_i overfull
    simp only [sentQueueCap] at overfull
    rw [List.eraseIdx_eq_take_drop_succ, List.getLast?_append, List.getLast?_drop, if_neg (by omega)]
    cases last : states.getLast? with
    | none =>
      rw [List.getLast?_eq_none_iff.mp last] at overfull
      simp at overfull
    | some s => rfl
  · rfl

theorem addSentState_sentStates (queue : SentQueue S) (timestamp : Nat) (num : UInt64) (state : S) :
    (queue.addSentState timestamp num state).sentStates =
      cull (queue.sentStates ++ [{ timestamp := timestamp, num := num, state := state }]) := by
  by_cases overfull : sentQueueCap <
      (queue.sentStates ++ [(⟨timestamp, num, state⟩ : TimestampedState S)]).length
  · simp only [addSentState, cull, dif_pos overfull, if_pos overfull]
  · simp only [addSentState, cull, dif_neg overfull, if_neg overfull]

theorem addSentState_assumedReceiver (queue : SentQueue S) (timestamp : Nat) (num : UInt64) (state : S) :
    (queue.addSentState timestamp num state).assumedReceiver =
      if sentQueueCap < queue.sentStates.length + 1 then
        if queue.sentStates.length + 1 - 16 < queue.assumedReceiver then queue.assumedReceiver - 1
        else if queue.assumedReceiver = queue.sentStates.length + 1 - 16 then 0 else queue.assumedReceiver
      else queue.assumedReceiver := by
  unfold addSentState
  simp only [List.length_append, List.length_singleton]
  split <;> rfl

theorem front_eq_of_head? {queue : SentQueue S} {s : TimestampedState S}
    (head : queue.sentStates.head? = some s) : queue.front = s := by
  rw [List.head?_eq_some_head queue.nonempty] at head
  exact Option.some.inj head

theorem head?_eq_front (queue : SentQueue S) : queue.sentStates.head? = some queue.front :=
  List.head?_eq_some_head queue.nonempty

theorem getLast?_eq_back (queue : SentQueue S) : queue.sentStates.getLast? = some queue.back :=
  List.getLast?_eq_some_getLast queue.nonempty

theorem front_mem (queue : SentQueue S) : queue.front ∈ queue.sentStates := List.head_mem queue.nonempty

theorem back_mem (queue : SentQueue S) : queue.back ∈ queue.sentStates := List.getLast_mem queue.nonempty

theorem assumed_mem (queue : SentQueue S) : queue.assumed ∈ queue.sentStates := List.get_mem _ _

theorem assumed_of_zero {queue : SentQueue S} (zero : queue.assumedReceiver = 0) :
    queue.assumed = queue.front := by
  simp [assumed, front, zero, List.head_eq_getElem]

theorem assumeFront_assumed (queue : SentQueue S) : queue.assumeFront.assumed = queue.front := by
  rw [assumed_of_zero rfl]
  rfl

theorem addSentState_front (queue : SentQueue S) (timestamp : Nat) (num : UInt64) (state : S) :
    (queue.addSentState timestamp num state).front = queue.front := by
  apply front_eq_of_head?
  rw [addSentState_sentStates, cull_head?, List.head?_append, head?_eq_front]
  rfl

theorem processAcknowledgmentThrough_back (queue : SentQueue S) (ack : UInt64)
    (newest : ∀ s ∈ queue.sentStates, s.num ≤ queue.back.num) :
    (queue.processAcknowledgmentThrough ack).back = queue.back := by
  apply Option.some.inj
  rw [← getLast?_eq_back, ← getLast?_eq_back]
  unfold processAcknowledgmentThrough
  split
  · rename_i known
    obtain ⟨s, member, same⟩ := List.any_eq_true.mp known
    have split : queue.sentStates.dropLast ++ [queue.back] = queue.sentStates :=
      List.dropLast_append_getLast queue.nonempty
    have reached : ack ≤ queue.back.num := by
      rw [← of_decide_eq_true same]
      exact newest s member
    dsimp only
    rw [← split, List.filter_append, List.filter_cons_of_pos (by simpa using reached), List.filter_nil,
      List.getLast?_concat, List.getLast?_concat]
  · rfl

theorem refreshBack_map {Info : Type} (queue : SentQueue S) (timestamp : Nat)
    (view : TimestampedState S → Info)
    (blind : ∀ s : TimestampedState S, view { s with timestamp := timestamp } = view s) :
    (queue.refreshBack timestamp).sentStates.map view = queue.sentStates.map view := by
  have split := List.dropLast_append_getLast queue.nonempty
  conv_rhs => rw [← split]
  simp only [refreshBack, List.map_append, List.map_cons, List.map_nil, blind]
  rfl

theorem front_view {Info : Type} {left right : SentQueue S} (view : TimestampedState S → Info)
    (same : left.sentStates.map view = right.sentStates.map view) : view left.front = view right.front := by
  have heads := congrArg List.head? same
  rw [List.head?_map, List.head?_map, head?_eq_front, head?_eq_front] at heads
  exact Option.some.inj heads

end SentQueue

theorem UInt64.add_one_ne (n : UInt64) : n + 1 ≠ n := by
  intro same
  have := congrArg UInt64.toNat same
  rw [UInt64.toNat_add, UInt64.toNat_one] at this
  have := n.toNat_lt
  omega

structure Framed {S : Type} [SspSentState S] (sender : SspSender S) (base : TimestampedState S)
    (inst : TransportInstruction) : Prop where
  member : base ∈ sender.queue.sentStates
  version : inst.protocolVersion = moshProtocolVersion
  old : inst.oldNum = base.num
  ack : inst.ackNum = sender.ackNum
  throwaway : inst.throwawayNum = sender.queue.front.num
  diff : inst.diff = SspSentState.diffFrom sender.currentState base.state
  chaff : inst.chaff = []
  economical : base = sender.queue.front ∨ (inst.diff = [] →
    100 ≤ (SspSentState.diffFrom sender.currentState sender.queue.front.state).length)

/-- What the queue becomes with the number of a sent state: one state more, or a refreshed back. -/
inductive Requeued {S : Type} (sender : SspSender S) (now : Nat) (inst : TransportInstruction) :
    List (TimestampedState S) → Prop
  | appended (num : inst.newNum = if sender.shutdownInProgress then shutdownNum else sender.queue.back.num + 1) :
      Requeued sender now inst (SentQueue.cull (sender.queue.sentStates ++
        [{ timestamp := now, num := inst.newNum, state := sender.currentState }]))
  | refreshed (num : inst.newNum = sender.queue.back.num) (carries : inst.diff ≠ [])
      (settled : sender.shutdownInProgress = true ∧ inst.newNum = shutdownNum ∨
        sender.shutdownInProgress = false ∧ sender.currentState = sender.queue.back.state) :
      Requeued sender now inst (sender.queue.refreshBack now).sentStates

theorem Requeued.newest {S : Type} {sender : SspSender S} {now : Nat} {inst : TransportInstruction}
    {queue : SentQueue S} (requeued : Requeued sender now inst queue.sentStates) :
    queue.back.timestamp = now ∧ queue.back.num = inst.newNum := by
  have last := queue.getLast?_eq_back
  generalize queue.sentStates = states at requeued last
  cases requeued with
  | appended num =>
    rw [SentQueue.cull_getLast?, List.getLast?_concat] at last
    rw [← Option.some.inj last]
    exact ⟨rfl, rfl⟩
  | refreshed num carries settled =>
    rw [SentQueue.refreshBack, List.getLast?_concat] at last
    rw [← Option.some.inj last]
    exact ⟨rfl, num.symm⟩

namespace SspSender

variable {S : Type}

theorem sendInFragments_spec (zlib : Zlib) (sender : SspSender S) (diff : Bytes) (oldNum newNum : UInt64)
    (mtu : Nat) (fragmenter : Fragmenter) :
    let ticked := sender.sendInFragments zlib diff oldNum newNum mtu fragmenter
    let inst := sender.frame diff oldNum newNum
    ticked.sender.queue = sender.queue ∧ ticked.sender.currentState = sender.currentState ∧
      ticked.sender.shutdownInProgress = sender.shutdownInProgress ∧
      ticked.sender.ackNum = sender.ackNum ∧
      ticked.sending = some (fragmenter.send zlib { inst := inst, mtu := mtu }).1 ∧
      ticked.fragmenter = (fragmenter.send zlib { inst := inst, mtu := mtu }).2 := by
  intro ticked inst
  have framed : sender.frame diff oldNum newNum = inst := rfl
  dsimp only [ticked, sendInFragments, Fragmenter.send]
  rw [framed]
  generalize fragmenter.makeFragments zlib inst mtu = made
  obtain ⟨result, after⟩ := made
  by_cases last : newNum = shutdownNum
  · rw [if_pos last]
    cases result <;> exact ⟨rfl, rfl, rfl, rfl, rfl, rfl⟩
  · rw [if_neg last]
    cases result <;> exact ⟨rfl, rfl, rfl, rfl, rfl, rfl⟩

structure Sent [SspSentState S] (zlib : Zlib) (sender : SspSender S) (now mtu : Nat) (fragmenter : Fragmenter)
    (diff : Bytes) (ticked : Ticked S) (inst : TransportInstruction) : Prop where
  sending : ticked.sending = some (fragmenter.send zlib { inst := inst, mtu := mtu }).1
  fragmenter : ticked.fragmenter = (fragmenter.send zlib { inst := inst, mtu := mtu }).2
  current : ticked.sender.currentState = sender.currentState
  shutdown : ticked.sender.shutdownInProgress = sender.shutdownInProgress
  acked : ticked.sender.ackNum = sender.ackNum
  queue : Requeued sender now inst ticked.sender.queue.sentStates
  version : inst.protocolVersion = moshProtocolVersion
  old : inst.oldNum = sender.queue.assumed.num
  ack : inst.ackNum = sender.ackNum
  throwaway : inst.throwawayNum = sender.queue.front.num
  carried : inst.diff = diff
  chaff : inst.chaff = []

theorem computeTimers_spec [DecidableEq S] (sender : SspSender S) (now rto sendInterval : Nat) :
    let timed := (sender.computeTimers now rto sendInterval).2
    timed.currentState = sender.currentState ∧ timed.queue = sender.queue ∧
      timed.shutdownInProgress = sender.shutdownInProgress ∧ timed.ackNum = sender.ackNum :=
  ⟨rfl, rfl, rfl, rfl⟩

theorem front_congr {left right : SentQueue S} (states : left.sentStates = right.sentStates) :
    left.front = right.front := by
  obtain ⟨leftStates, _, _⟩ := left
  subst states
  rfl

theorem requeued_congr {left right : SspSender S} {now : Nat} {inst : TransportInstruction}
    {states : List (TimestampedState S)} (queue : left.queue.sentStates = right.queue.sentStates)
    (current : left.currentState = right.currentState)
    (shutdown : left.shutdownInProgress = right.shutdownInProgress)
    (requeued : Requeued left now inst states) : Requeued right now inst states := by
  obtain ⟨leftState, ⟨leftStates, _, _⟩⟩ := left
  dsimp only at queue current shutdown
  subst queue current shutdown
  cases requeued with
  | appended num => exact .appended num
  | refreshed num carries settled => exact .refreshed num carries settled

variable [SspSentState S]

theorem sendEmptyAck_spec (zlib : Zlib) (sender : SspSender S) (now mtu : Nat) (fragmenter : Fragmenter) :
    ∃ inst, Sent zlib sender now mtu fragmenter [] (sender.sendEmptyAck zlib now mtu fragmenter) inst := by
  generalize newNumEq : (if sender.shutdownInProgress then shutdownNum else sender.queue.back.num + 1) =
    newNum
  obtain ⟨queue, current, shutdown, acked, sending, after⟩ :=
    sendInFragments_spec zlib
      { sender with queue := sender.queue.addSentState now newNum sender.currentState } []
      sender.queue.assumed.num newNum mtu fragmenter
  rw [frame, SentQueue.addSentState_front] at sending after
  rw [sendEmptyAck, newNumEq]
  refine ⟨sender.frame [] sender.queue.assumed.num newNum, sending, after, current, shutdown, acked, ?_,
    rfl, rfl, rfl, rfl, rfl, rfl⟩
  dsimp only at queue ⊢
  rw [queue, SentQueue.addSentState_sentStates]
  exact .appended newNumEq.symm

theorem sendToReceiver_spec [DecidableEq S] (zlib : Zlib) (sender : SspSender S) (now : Nat) (diff : Bytes)
    (mtu : Nat) (fragmenter : Fragmenter) (carries : diff ≠ []) :
    ∃ inst, Sent zlib sender now mtu fragmenter diff
      (sender.sendToReceiver zlib now diff mtu fragmenter) inst := by
  generalize newNumEq : (if sender.shutdownInProgress then shutdownNum
    else if sender.currentState = sender.queue.back.state then sender.queue.back.num
      else sender.queue.back.num + 1) = newNum
  generalize requeuedEq : (if newNum = sender.queue.back.num then sender.queue.refreshBack now
    else sender.queue.addSentState now newNum sender.currentState) = requeued
  obtain ⟨queue, current, shutdown, acked, sending, after⟩ :=
    sendInFragments_spec zlib { sender with queue := requeued } diff sender.queue.assumed.num newNum mtu
      fragmenter
  have front : requeued.front.num = sender.queue.front.num := by
    rw [← requeuedEq]
    split
    · exact SentQueue.front_view TimestampedState.num (sender.queue.refreshBack_map now _ fun _ => rfl)
    · rw [SentQueue.addSentState_front]
  rw [frame, front] at sending after
  have states : (sendInFragments zlib { sender with queue := requeued } diff sender.queue.assumed.num newNum
      mtu fragmenter).sender.queue.assumeBack.sentStates = requeued.sentStates := by
    rw [queue]
    rfl
  rw [sendToReceiver, newNumEq, requeuedEq]
  refine ⟨sender.frame diff sender.queue.assumed.num newNum, sending, after, current, shutdown, acked,
    ?_, rfl, rfl, rfl, rfl, rfl, rfl⟩
  dsimp only
  rw [states, ← requeuedEq]
  by_cases same : newNum = sender.queue.back.num
  · rw [if_pos same]
    refine .refreshed same carries ?_
    by_cases shutting : sender.shutdownInProgress = true
    · rw [if_pos shutting] at newNumEq
      exact .inl ⟨shutting, newNumEq.symm⟩
    · rw [if_neg shutting, same] at newNumEq
      split at newNumEq
      · rename_i settled
        exact .inr ⟨Bool.eq_false_iff.mpr shutting, settled⟩
      · exact absurd newNumEq (UInt64.add_one_ne _)
  · rw [if_neg same, SentQueue.addSentState_sentStates]
    refine .appended ?_
    show newNum = _
    by_cases shutting : sender.shutdownInProgress = true
    · rw [if_pos shutting] at newNumEq ⊢
      exact newNumEq.symm
    · rw [if_neg shutting] at newNumEq ⊢
      split at newNumEq
      · exact absurd newNumEq.symm same
      · exact newNumEq.symm

/-- The diff that goes out is one against a state of the queue, and an empty one against another state
    than the front stands only where a resend from the front would be long. -/
theorem attemptProspectiveResendOptimization_spec (sender : SspSender S) (proposed : Bytes)
    (base : proposed = SspSentState.diffFrom sender.currentState sender.queue.assumed.state) :
    let attempt := sender.attemptProspectiveResendOptimization proposed
    (attempt.2 = sender ∨ attempt.2 = { sender with queue := sender.queue.assumeFront }) ∧
      attempt.1 = SspSentState.diffFrom sender.currentState attempt.2.queue.assumed.state ∧
      (attempt.2.queue.assumed = sender.queue.front ∨ (attempt.1 = [] →
        100 ≤ (SspSentState.diffFrom sender.currentState sender.queue.front.state).length)) := by
  unfold attemptProspectiveResendOptimization
  by_cases skip : sender.queue.assumedReceiver = 0 ∨ sender.queue.sentStates.length < 2
  · simp only [if_pos skip]
    refine ⟨.inl trivial, base, .inl (SentQueue.assumed_of_zero ?_)⟩
    have := sender.queue.inRange
    omega
  · simp only [if_neg skip]
    by_cases cheap : (SspSentState.diffFrom sender.currentState sender.queue.front.state).length ≤
        proposed.length ∨
      ((SspSentState.diffFrom sender.currentState sender.queue.front.state).length < 1000 ∧
        (SspSentState.diffFrom sender.currentState sender.queue.front.state).length - proposed.length < 100)
    · rw [if_pos cheap]
      have front := sender.queue.assumeFront_assumed
      exact ⟨.inr rfl, by rw [front], .inl front⟩
    · rw [if_neg cheap]
      refine ⟨.inl rfl, base, .inr fun empty => ?_⟩
      dsimp only at empty
      rw [empty] at cheap
      simp only [List.length_nil, Nat.sub_zero] at cheap
      omega

def prepared (sender : SspSender S) (now rto : Nat) : SspSender S :=
  (sender.updateAssumedReceiverState now rto).rationalizeStates

theorem prepared_fields (sender : SspSender S) (now rto : Nat) :
    (sender.prepared now rto).shutdownInProgress = sender.shutdownInProgress ∧
      (sender.prepared now rto).ackNum = sender.ackNum := by
  unfold prepared rationalizeStates
  split <;> exact ⟨rfl, rfl⟩

def Due (zlib : Zlib) (sender : SspSender S) (now mtu : Nat) (fragmenter : Fragmenter)
    (ticked : Ticked S) : Prop :=
  ticked.sender.currentState = sender.currentState ∧
    ticked.sender.shutdownInProgress = sender.shutdownInProgress ∧
    ticked.sender.ackNum = sender.ackNum ∧
    ((ticked.sending = none ∧ ticked.fragmenter = fragmenter ∧
        ticked.sender.queue.sentStates = sender.queue.sentStates) ∨
      ∃ base inst, Framed sender base inst ∧
        Requeued sender now inst ticked.sender.queue.sentStates ∧
        ticked.sending = some (fragmenter.send zlib { inst := inst, mtu := mtu }).1 ∧
        ticked.fragmenter = (fragmenter.send zlib { inst := inst, mtu := mtu }).2)

theorem framed_congr {left right : SspSender S} {base : TimestampedState S} {inst : TransportInstruction}
    (queue : left.queue.sentStates = right.queue.sentStates)
    (current : left.currentState = right.currentState) (acked : left.ackNum = right.ackNum)
    (framed : Framed left base inst) : Framed right base inst := by
  have front := front_congr queue
  obtain ⟨member, version, old, ack, throwaway, diff, chaff, economical⟩ := framed
  rw [front, current] at economical
  exact ⟨queue ▸ member, version, old, ack.trans acked, throwaway.trans (congrArg _ front),
    current ▸ diff, chaff, economical⟩

theorem due_congr {zlib : Zlib} {left right : SspSender S} {now mtu : Nat} {fragmenter : Fragmenter}
    {ticked : Ticked S} (queue : left.queue.sentStates = right.queue.sentStates)
    (current : left.currentState = right.currentState) (acked : left.ackNum = right.ackNum)
    (shutdown : left.shutdownInProgress = right.shutdownInProgress)
    (due : Due zlib left now mtu fragmenter ticked) : Due zlib right now mtu fragmenter ticked := by
  obtain ⟨state, shutting, ack, ⟨sending, same, states⟩ | ⟨base, inst, framed, requeued, rest⟩⟩ := due
  · exact ⟨state.trans current, shutting.trans shutdown, ack.trans acked,
      .inl ⟨sending, same, states.trans queue⟩⟩
  · exact ⟨state.trans current, shutting.trans shutdown, ack.trans acked,
      .inr ⟨base, inst, framed_congr queue current acked framed,
        requeued_congr queue current shutdown requeued, rest⟩⟩

theorem Sent.due {zlib : Zlib} {sender : SspSender S} {now mtu : Nat} {fragmenter : Fragmenter}
    {diff : Bytes} {ticked : Ticked S} {inst : TransportInstruction}
    (sent : Sent zlib sender now mtu fragmenter diff ticked inst)
    (diffed : diff = SspSentState.diffFrom sender.currentState sender.queue.assumed.state)
    (economical : sender.queue.assumed = sender.queue.front ∨ (diff = [] →
      100 ≤ (SspSentState.diffFrom sender.currentState sender.queue.front.state).length)) :
    Due zlib sender now mtu fragmenter ticked := by
  rw [← sent.carried] at economical
  exact ⟨sent.current, sent.shutdown, sent.acked, .inr ⟨sender.queue.assumed, inst,
    ⟨sender.queue.assumed_mem, sent.version, sent.old, sent.ack, sent.throwaway,
      sent.carried.trans diffed, sent.chaff, economical⟩, sent.queue, sent.sending, sent.fragmenter⟩⟩

theorem sendDue_due [DecidableEq S] (zlib : Zlib) (sender : SspSender S) (dueSend dueAck : Bool)
    (now mtu : Nat) (fragmenter : Fragmenter) :
    Due zlib sender now mtu fragmenter (sender.sendDue zlib dueSend dueAck now mtu fragmenter) := by
  obtain ⟨placed, diff, economical⟩ := sender.attemptProspectiveResendOptimization_spec _ rfl
  unfold sendDue
  dsimp only at placed diff economical ⊢
  generalize sender.attemptProspectiveResendOptimization
    (SspSentState.diffFrom sender.currentState sender.queue.assumed.state) = attempt at *
  obtain ⟨chosen, based⟩ := attempt
  dsimp only at placed diff economical ⊢
  have queue : based.queue.sentStates = sender.queue.sentStates := by
    rcases placed with rfl | rfl <;> rfl
  have current : based.currentState = sender.currentState := by
    rcases placed with rfl | rfl <;> rfl
  have acked : based.ackNum = sender.ackNum := by
    rcases placed with rfl | rfl <;> rfl
  have shutdown : based.shutdownInProgress = sender.shutdownInProgress := by
    rcases placed with rfl | rfl <;> rfl
  refine due_congr queue current acked shutdown ?_
  rw [← current] at diff economical
  rw [← front_congr queue] at economical
  by_cases empty : chosen.isEmpty = true
  · rw [if_pos empty]
    obtain rfl := List.isEmpty_iff.mp empty
    obtain ⟨inst, sent⟩ := based.sendEmptyAck_spec zlib now mtu fragmenter
    cases dueAck with
    | true =>
      have due := sent.due diff economical
      generalize based.sendEmptyAck zlib now mtu fragmenter = ticked at due ⊢
      cases dueSend <;> exact due
    | false => cases dueSend <;> exact ⟨rfl, rfl, rfl, .inl ⟨rfl, rfl, rfl⟩⟩
  · rw [if_neg empty]
    obtain ⟨inst, sent⟩ := based.sendToReceiver_spec zlib now chosen mtu fragmenter
      (fun nothing => empty (List.isEmpty_iff.mpr nothing))
    have due := sent.due diff economical
    generalize based.sendToReceiver zlib now chosen mtu fragmenter = ticked at due ⊢
    exact due

/-- Everything a tick can do: nothing but timers, or one instruction framed and its state queued. -/
theorem tick_due [DecidableEq S] (zlib : Zlib) (sender : SspSender S) (now rto sendInterval mtu : Nat)
    (fragmenter : Fragmenter) :
    Due zlib (sender.prepared now rto) now mtu fragmenter
      (sender.tick zlib now rto sendInterval mtu fragmenter) := by
  unfold tick
  dsimp only
  rw [show (sender.updateAssumedReceiverState now rto).rationalizeStates = sender.prepared now rto from rfl]
  generalize sender.prepared now rto = start
  obtain ⟨current, queue, shutdown, acked⟩ := start.computeTimers_spec now rto sendInterval
  generalize start.computeTimers now rto sendInterval = timers at *
  obtain ⟨⟨nextSend, nextAck⟩, timed⟩ := timers
  dsimp only at current queue shutdown acked ⊢
  refine due_congr (congrArg _ queue) current acked shutdown ?_
  by_cases quiet : (!nextSend.any (· ≤ now) && !nextAck.any (· ≤ now)) = true
  · rw [if_pos quiet]
    exact ⟨rfl, rfl, rfl, .inl ⟨rfl, rfl, rfl⟩⟩
  · rw [if_neg quiet]
    exact timed.sendDue_due zlib _ _ now mtu fragmenter

end SspSender

end MoshModel
