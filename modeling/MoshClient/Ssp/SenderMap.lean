import MoshClient.Ssp.SenderSteps

namespace MoshModel

variable {S T : Type}

def TimestampedState.map (f : S → T) (s : TimestampedState S) : TimestampedState T :=
  { timestamp := s.timestamp, num := s.num, state := f s.state }

/-- A representation of states that a sender cannot tell from the original: it compares states and takes
    diffs, and sees nothing else of them. -/
structure Embeds [SspSentState S] [SspSentState T] (f : S → T) : Prop where
  injective : Function.Injective f
  diff : ∀ s existing, SspSentState.diffFrom (f s) (f existing) = SspSentState.diffFrom s existing

namespace SentQueue

theorem eq_of_fields {left right : SentQueue S} (states : left.sentStates = right.sentStates)
    (assumed : left.assumedReceiver = right.assumedReceiver) : left = right := by
  obtain ⟨leftStates, leftAssumed, _⟩ := left
  subst states assumed
  rfl

def map (queue : SentQueue S) (f : S → T) : SentQueue T :=
  { sentStates := queue.sentStates.map (TimestampedState.map f), assumedReceiver := queue.assumedReceiver,
    inRange := by rw [List.length_map]; exact queue.inRange }

variable (queue : SentQueue S) (f : S → T)

theorem map_length : (queue.map f).sentStates.length = queue.sentStates.length := List.length_map _

theorem map_front : (queue.map f).front = queue.front.map f := List.head_map ..

theorem map_back : (queue.map f).back = queue.back.map f := List.getLast_map ..

theorem map_assumed : (queue.map f).assumed = queue.assumed.map f := List.getElem_map ..

theorem freshWalk_map (now rto : Nat) (states : List (TimestampedState S)) :
    freshWalk now rto (states.map (TimestampedState.map f)) = freshWalk now rto states := by
  induction states with
  | nil => rfl
  | cons s rest ih =>
    rw [List.map_cons, freshWalk, freshWalk, ih]
    rfl

theorem map_updateAssumedReceiverState (now rto : Nat) :
    (queue.map f).updateAssumedReceiverState now rto = (queue.updateAssumedReceiverState now rto).map f := by
  apply eq_of_fields
  · rfl
  · show freshWalk now rto (queue.map f).sentStates.tail = freshWalk now rto queue.sentStates.tail
    rw [← freshWalk_map f now rto queue.sentStates.tail, List.map_tail]
    rfl

theorem map_assumeBack : (queue.map f).assumeBack = queue.assumeBack.map f := by
  apply eq_of_fields
  · rfl
  · show (queue.map f).sentStates.length - 1 = queue.sentStates.length - 1
    rw [map_length]

theorem map_refreshBack (timestamp : Nat) :
    (queue.map f).refreshBack timestamp = (queue.refreshBack timestamp).map f := by
  apply eq_of_fields
  · show (queue.map f).sentStates.dropLast ++ [{ (queue.map f).back with timestamp := timestamp }] = _
    rw [map_back]
    simp only [refreshBack, map, List.map_append, List.map_dropLast]
    rfl
  · rfl

theorem map_addSentState (timestamp : Nat) (num : UInt64) (state : S) :
    (queue.map f).addSentState timestamp num (f state) = (queue.addSentState timestamp num state).map f := by
  apply eq_of_fields
  · rw [addSentState_sentStates]
    show _ = (queue.addSentState timestamp num state).sentStates.map (TimestampedState.map f)
    rw [addSentState_sentStates, cull_map, List.map_append]
    rfl
  · show ((queue.map f).addSentState timestamp num (f state)).assumedReceiver =
      (queue.addSentState timestamp num state).assumedReceiver
    rw [addSentState_assumedReceiver, addSentState_assumedReceiver, map_length]
    rfl

theorem map_processAcknowledgmentThrough (ack : UInt64) :
    (queue.map f).processAcknowledgmentThrough ack = (queue.processAcknowledgmentThrough ack).map f := by
  have any : (queue.map f).sentStates.any (fun s => s.num = ack) = queue.sentStates.any fun s => s.num = ack := by
    show (queue.sentStates.map (TimestampedState.map f)).any _ = _
    rw [List.any_map]
    rfl
  have filtered : (queue.map f).sentStates.filter (fun s => ack ≤ s.num) =
      (queue.sentStates.filter fun s => ack ≤ s.num).map (TimestampedState.map f) := by
    show (queue.sentStates.map (TimestampedState.map f)).filter _ = _
    rw [List.filter_map]
    rfl
  unfold processAcknowledgmentThrough
  by_cases known : (queue.sentStates.any fun s => s.num = ack) = true
  · rw [dif_pos known, dif_pos (any.trans known)]
    apply eq_of_fields
    · exact filtered
    · dsimp only [map] at filtered ⊢
      rw [filtered, List.length_map]
  · rw [dif_neg known, dif_neg (any ▸ known)]

end SentQueue

namespace SspSender

def map (sender : SspSender S) (f : S → T) : SspSender T :=
  { currentState := f sender.currentState, queue := sender.queue.map f, ackNum := sender.ackNum,
    nextAckTime := sender.nextAckTime, nextSendTime := sender.nextSendTime,
    mindelayClock := sender.mindelayClock, pendingDataAck := sender.pendingDataAck,
    shutdownInProgress := sender.shutdownInProgress, shutdownTries := sender.shutdownTries,
    shutdownStart := sender.shutdownStart, lastHeard := sender.lastHeard, sendMindelay := sender.sendMindelay }

end SspSender

def Ticked.map (ticked : Ticked S) (f : S → T) : Ticked T :=
  { sender := ticked.sender.map f, fragmenter := ticked.fragmenter, sending := ticked.sending }

namespace SspSender

variable {f : S → T} (sender : SspSender S)

theorem map_startShutdown (f : S → T) (now : Nat) :
    (sender.map f).startShutdown now = (sender.startShutdown now).map f := by
  by_cases shutting : sender.shutdownInProgress = true
  · have same : sender.startShutdown now = sender := if_pos shutting
    rw [same]
    exact if_pos shutting
  · have shut : sender.startShutdown now =
        { sender with shutdownStart := some now, shutdownInProgress := true } := if_neg shutting
    rw [shut]
    exact if_neg shutting

theorem map_processAcknowledgmentThrough (f : S → T) (ack : UInt64) :
    (sender.map f).processAcknowledgmentThrough ack = (sender.processAcknowledgmentThrough ack).map f := by
  unfold processAcknowledgmentThrough
  rw [show (sender.map f).queue = sender.queue.map f from rfl,
    SentQueue.map_processAcknowledgmentThrough]
  rfl

theorem map_updateAssumedReceiverState (f : S → T) (now rto : Nat) :
    (sender.map f).updateAssumedReceiverState now rto = (sender.updateAssumedReceiverState now rto).map f := by
  unfold updateAssumedReceiverState
  rw [show (sender.map f).queue = sender.queue.map f from rfl, SentQueue.map_updateAssumedReceiverState]
  rfl

theorem map_sendInFragments (f : S → T) (zlib : Zlib) (diff : Bytes) (oldNum newNum : UInt64) (mtu : Nat)
    (fragmenter : Fragmenter) :
    (sender.map f).sendInFragments zlib diff oldNum newNum mtu fragmenter =
      (sender.sendInFragments zlib diff oldNum newNum mtu fragmenter).map f := by
  have framed : (sender.map f).frame diff oldNum newNum = sender.frame diff oldNum newNum := by
    unfold frame
    rw [show (sender.map f).queue.front = sender.queue.front.map f from sender.queue.map_front f]
    rfl
  dsimp only [sendInFragments]
  rw [framed]
  generalize fragmenter.makeFragments zlib (sender.frame diff oldNum newNum) mtu = made
  obtain ⟨result, after⟩ := made
  by_cases last : newNum = shutdownNum
  · rw [if_pos last, if_pos last]
    cases result <;> rfl
  · rw [if_neg last, if_neg last]
    cases result <;> rfl

theorem map_sendEmptyAck (f : S → T) (zlib : Zlib) (now mtu : Nat) (fragmenter : Fragmenter) :
    (sender.map f).sendEmptyAck zlib now mtu fragmenter =
      (sender.sendEmptyAck zlib now mtu fragmenter).map f := by
  have assumed : (sender.map f).queue.assumed.num = sender.queue.assumed.num :=
    congrArg TimestampedState.num (sender.queue.map_assumed f)
  have back : (sender.map f).queue.back.num = sender.queue.back.num :=
    congrArg TimestampedState.num (sender.queue.map_back f)
  have added : ∀ num : UInt64,
      { sender.map f with queue := (sender.map f).queue.addSentState now num (sender.map f).currentState } =
        ({ sender with queue := sender.queue.addSentState now num sender.currentState } : SspSender S).map f := by
    intro num
    have queue := sender.queue.map_addSentState f now num sender.currentState
    unfold map
    rw [← queue]
  unfold sendEmptyAck
  rw [assumed, back]
  dsimp only
  rw [added, map_sendInFragments]
  rfl

variable [SspSentState S] [SspSentState T]

theorem map_state_eq (embeds : Embeds f) {s : TimestampedState T} {t : TimestampedState S} (same : s = t.map f) :
    (sender.map f).currentState = s.state ↔ sender.currentState = t.state := by
  rw [same]
  exact embeds.injective.eq_iff

theorem map_attemptProspectiveResendOptimization (embeds : Embeds f) (proposed : Bytes) :
    (sender.map f).attemptProspectiveResendOptimization proposed =
      ((sender.attemptProspectiveResendOptimization proposed).1,
        (sender.attemptProspectiveResendOptimization proposed).2.map f) := by
  have resend : SspSentState.diffFrom (sender.map f).currentState (sender.map f).queue.front.state =
      SspSentState.diffFrom sender.currentState sender.queue.front.state := by
    rw [show (sender.map f).queue.front = sender.queue.front.map f from sender.queue.map_front f]
    exact embeds.diff _ _
  unfold attemptProspectiveResendOptimization
  rw [resend]
  by_cases skip : sender.queue.assumedReceiver = 0 ∨ sender.queue.sentStates.length < 2
  · have skipToo : (sender.map f).queue.assumedReceiver = 0 ∨ (sender.map f).queue.sentStates.length < 2 := by
      rw [show (sender.map f).queue.sentStates.length = _ from sender.queue.map_length f]
      exact skip
    rw [if_pos skip, if_pos skipToo]
  · have goOn : ¬((sender.map f).queue.assumedReceiver = 0 ∨ (sender.map f).queue.sentStates.length < 2) := by
      rw [show (sender.map f).queue.sentStates.length = _ from sender.queue.map_length f]
      exact skip
    rw [if_neg skip, if_neg goOn]
    dsimp only
    split <;> rfl

variable [DecidableEq S] [DecidableEq T]

theorem map_computeTimers (embeds : Embeds f) (now rto sendInterval : Nat) :
    (sender.map f).computeTimers now rto sendInterval =
      ((sender.computeTimers now rto sendInterval).1, (sender.computeTimers now rto sendInterval).2.map f) := by
  have back := sender.map_state_eq embeds (sender.queue.map_back f)
  have assumed := sender.map_state_eq embeds (sender.queue.map_assumed f)
  have front := sender.map_state_eq embeds (sender.queue.map_front f)
  have stamped : (sender.map f).queue.back.timestamp = sender.queue.back.timestamp :=
    congrArg TimestampedState.timestamp (sender.queue.map_back f)
  have length : (sender.map f).queue.sentStates.length = sender.queue.sentStates.length :=
    sender.queue.map_length f
  unfold computeTimers
  dsimp only [map] at back assumed front stamped length ⊢
  simp only [ne_eq, back, assumed, front, stamped, length]
  congr!

theorem map_waitTime (embeds : Embeds f) (now rto sendInterval : Nat) :
    (sender.map f).waitTime now rto sendInterval =
      ((sender.waitTime now rto sendInterval).1, (sender.waitTime now rto sendInterval).2.map f) := by
  unfold waitTime
  rw [map_computeTimers sender embeds]

theorem map_sendToReceiver (embeds : Embeds f) (zlib : Zlib) (now : Nat) (diff : Bytes) (mtu : Nat)
    (fragmenter : Fragmenter) :
    (sender.map f).sendToReceiver zlib now diff mtu fragmenter =
      (sender.sendToReceiver zlib now diff mtu fragmenter).map f := by
  have assumed : (sender.map f).queue.assumed.num = sender.queue.assumed.num :=
    congrArg TimestampedState.num (sender.queue.map_assumed f)
  have back : (sender.map f).queue.back.num = sender.queue.back.num :=
    congrArg TimestampedState.num (sender.queue.map_back f)
  have level := sender.map_state_eq embeds (sender.queue.map_back f)
  have counted : (if (sender.map f).currentState = (sender.map f).queue.back.state then sender.queue.back.num
      else sender.queue.back.num + 1) =
      if sender.currentState = sender.queue.back.state then sender.queue.back.num
        else sender.queue.back.num + 1 := if_congr level rfl rfl
  have requeued : ∀ num : UInt64,
      { sender.map f with
        queue := if num = sender.queue.back.num then (sender.map f).queue.refreshBack now
          else (sender.map f).queue.addSentState now num (sender.map f).currentState } =
        ({ sender with
          queue := if num = sender.queue.back.num then sender.queue.refreshBack now
            else sender.queue.addSentState now num sender.currentState } : SspSender S).map f := by
    intro num
    have refreshed := sender.queue.map_refreshBack f now
    have added := sender.queue.map_addSentState f now num sender.currentState
    by_cases same : num = sender.queue.back.num
    · rw [if_pos same, if_pos same]
      unfold map
      rw [← refreshed]
    · rw [if_neg same, if_neg same]
      unfold map
      rw [← added]
  have ended : ∀ ticked : Ticked S, (ticked.map f).sender.queue.assumeBack =
      ticked.sender.queue.assumeBack.map f := fun ticked => ticked.sender.queue.map_assumeBack f
  unfold sendToReceiver
  dsimp only
  rw [assumed, back, counted, requeued, map_sendInFragments, ended]
  rfl

theorem map_sendDue (embeds : Embeds f) (zlib : Zlib) (dueSend dueAck : Bool) (now mtu : Nat)
    (fragmenter : Fragmenter) :
    (sender.map f).sendDue zlib dueSend dueAck now mtu fragmenter =
      (sender.sendDue zlib dueSend dueAck now mtu fragmenter).map f := by
  have proposed : SspSentState.diffFrom (sender.map f).currentState (sender.map f).queue.assumed.state =
      SspSentState.diffFrom sender.currentState sender.queue.assumed.state := by
    rw [show (sender.map f).queue.assumed = sender.queue.assumed.map f from sender.queue.map_assumed f]
    exact embeds.diff _ _
  unfold sendDue
  dsimp only
  rw [proposed, map_attemptProspectiveResendOptimization sender embeds]
  generalize sender.attemptProspectiveResendOptimization
    (SspSentState.diffFrom sender.currentState sender.queue.assumed.state) = attempt
  obtain ⟨diff, based⟩ := attempt
  dsimp only
  by_cases empty : diff.isEmpty = true
  · rw [if_pos empty, if_pos empty, map_sendEmptyAck]
    cases dueAck <;> cases dueSend <;> rfl
  · rw [if_neg empty, if_neg empty, map_sendToReceiver based embeds]
    rfl

/-- A tick past its two preparing passes sees states only through comparisons and diffs. -/
theorem tick_map (embeds : Embeds f) (zlib : Zlib) {other : SspSender T} (now rto sendInterval mtu : Nat)
    (fragmenter : Fragmenter) (start : other.prepared now rto = (sender.prepared now rto).map f) :
    other.tick zlib now rto sendInterval mtu fragmenter =
      (sender.tick zlib now rto sendInterval mtu fragmenter).map f := by
  unfold tick
  dsimp only
  rw [show (other.updateAssumedReceiverState now rto).rationalizeStates = other.prepared now rto from rfl,
    show (sender.updateAssumedReceiverState now rto).rationalizeStates = sender.prepared now rto from rfl,
    start, map_computeTimers _ embeds]
  generalize (sender.prepared now rto).computeTimers now rto sendInterval = timers
  obtain ⟨⟨nextSend, nextAck⟩, timed⟩ := timers
  dsimp only
  by_cases quiet : (!nextSend.any (· ≤ now) && !nextAck.any (· ≤ now)) = true
  · rw [if_pos quiet, if_pos quiet]
    rfl
  · rw [if_neg quiet, if_neg quiet, map_sendDue timed embeds]

end SspSender

end MoshModel
