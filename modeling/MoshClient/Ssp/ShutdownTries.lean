import MoshClient.Ssp.SenderTiming

namespace MoshModel

/-- The instruction of a call numbers the last state. -/
def Sending.closes (sending : Sending) : Bool := sending.call.inst.newNum = shutdownNum

namespace SspSender

variable {S : Type}

/-- What a tick does to the fields of the shutdown: a try for each instruction that numbers the last state. -/
structure Tried (sender : SspSender S) (ticked : Ticked S) : Prop where
  start : ticked.sender.shutdownStart = sender.shutdownStart
  shutdown : ticked.sender.shutdownInProgress = sender.shutdownInProgress
  tries : ticked.sender.shutdownTries = sender.shutdownTries + ticked.sending.toList.countP Sending.closes
  closing : sender.shutdownInProgress = true → ∀ sending ∈ ticked.sending, sending.closes = true

theorem Tried.of_fields {sender other : SspSender S} {ticked : Ticked S} (tried : Tried sender ticked)
    (start : other.shutdownStart = sender.shutdownStart)
    (shutdown : other.shutdownInProgress = sender.shutdownInProgress)
    (tries : other.shutdownTries = sender.shutdownTries) : Tried other ticked := by
  refine ⟨tried.start.trans start.symm, tried.shutdown.trans shutdown.symm, tried.tries.trans (by rw [tries]), ?_⟩
  intro closing
  exact tried.closing (shutdown.symm.trans closing)

theorem sendInFragments_tried (zlib : Zlib) (sender : SspSender S) (diff : Bytes) (oldNum newNum : UInt64)
    (mtu : Nat) (fragmenter : Fragmenter)
    (numbered : sender.shutdownInProgress = true → newNum = shutdownNum) :
    Tried sender (sender.sendInFragments zlib diff oldNum newNum mtu fragmenter) := by
  unfold sendInFragments frame
  dsimp only
  generalize fragmenter.makeFragments zlib _ mtu = made
  obtain ⟨result, after⟩ := made
  by_cases last : newNum = shutdownNum
  · rw [if_pos last]
    cases result <;>
      exact ⟨rfl, rfl, by simp [Sending.closes, last], fun _ sending sent => by cases sent; simp [Sending.closes, last]⟩
  · rw [if_neg last]
    cases result <;>
      exact ⟨rfl, rfl, by simp [Sending.closes, last], fun closing => absurd (numbered closing) last⟩

theorem sendEmptyAck_tried (zlib : Zlib) (sender : SspSender S) (now mtu : Nat) (fragmenter : Fragmenter) :
    Tried sender (sender.sendEmptyAck zlib now mtu fragmenter) := by
  have tried := sendInFragments_tried zlib { sender with
    queue := sender.queue.addSentState now
      (if sender.shutdownInProgress then shutdownNum else sender.queue.back.num + 1) sender.currentState }
    [] sender.queue.assumed.num (if sender.shutdownInProgress then shutdownNum else sender.queue.back.num + 1) mtu
    fragmenter fun closing => if_pos closing
  exact ⟨tried.start, tried.shutdown, tried.tries, tried.closing⟩

variable [DecidableEq S]

theorem sendToReceiver_tried (zlib : Zlib) (sender : SspSender S) (now : Nat) (diff : Bytes) (mtu : Nat)
    (fragmenter : Fragmenter) : Tried sender (sender.sendToReceiver zlib now diff mtu fragmenter) := by
  unfold sendToReceiver
  dsimp only
  generalize numEq : (if sender.shutdownInProgress then shutdownNum
    else if sender.currentState = sender.queue.back.state then sender.queue.back.num
      else sender.queue.back.num + 1) = newNum
  have numbered : sender.shutdownInProgress = true → newNum = shutdownNum := by
    intro closing
    rw [← numEq, if_pos closing]
  have tried := sendInFragments_tried zlib { sender with
    queue := if newNum = sender.queue.back.num then sender.queue.refreshBack now
      else sender.queue.addSentState now newNum sender.currentState } diff sender.queue.assumed.num newNum mtu
    fragmenter numbered
  exact ⟨tried.start, tried.shutdown, tried.tries, tried.closing⟩

variable [SspSentState S]

omit [DecidableEq S] in
theorem prepared_shutdown (sender : SspSender S) (now rto : Nat) :
    (sender.prepared now rto).shutdownStart = sender.shutdownStart ∧
      (sender.prepared now rto).shutdownTries = sender.shutdownTries := by
  unfold prepared rationalizeStates
  split <;> exact ⟨rfl, rfl⟩

theorem sendDue_tried (zlib : Zlib) (sender : SspSender S) (dueSend dueAck : Bool) (now mtu : Nat)
    (fragmenter : Fragmenter) : Tried sender (sender.sendDue zlib dueSend dueAck now mtu fragmenter) := by
  have placed := (sender.attemptProspectiveResendOptimization_spec _ rfl).1
  unfold sendDue
  dsimp only at placed ⊢
  generalize sender.attemptProspectiveResendOptimization
    (SspSentState.diffFrom sender.currentState sender.queue.assumed.state) = attempt at *
  obtain ⟨diff, based⟩ := attempt
  dsimp only at placed ⊢
  have same : based.shutdownStart = sender.shutdownStart ∧
      based.shutdownInProgress = sender.shutdownInProgress ∧ based.shutdownTries = sender.shutdownTries := by
    rcases placed with rfl | rfl <;> exact ⟨rfl, rfl, rfl⟩
  suffices tried : Tried based (if diff.isEmpty = true then _ else _) from
    tried.of_fields same.1.symm same.2.1.symm same.2.2.symm
  by_cases empty : diff.isEmpty = true
  · rw [if_pos empty]
    cases dueAck with
    | true =>
      have tried := based.sendEmptyAck_tried zlib now mtu fragmenter
      cases dueSend <;> exact ⟨tried.start, tried.shutdown, tried.tries, tried.closing⟩
    | false => cases dueSend <;> exact ⟨rfl, rfl, rfl, fun _ sending sent => by cases sent⟩
  · rw [if_neg empty]
    have tried := based.sendToReceiver_tried zlib now diff mtu fragmenter
    exact ⟨tried.start, tried.shutdown, tried.tries, tried.closing⟩

theorem tick_tried (zlib : Zlib) (sender : SspSender S) (now rto sendInterval mtu : Nat) (fragmenter : Fragmenter) :
    Tried sender (sender.tick zlib now rto sendInterval mtu fragmenter) := by
  obtain ⟨start, tries⟩ := sender.prepared_shutdown now rto
  have shutdown := (sender.prepared_fields now rto).1
  by_cases due : sender.dueSend now rto sendInterval = true ∨ sender.dueAck now rto sendInterval = true
  · rw [tick_of_due zlib sender now rto sendInterval mtu fragmenter due]
    exact (sendDue_tried zlib _ _ _ now mtu fragmenter).of_fields start.symm shutdown.symm tries.symm
  · rw [not_or, Bool.not_eq_true, Bool.not_eq_true] at due
    rw [tick_quiet zlib sender now rto sendInterval mtu fragmenter due.1 due.2]
    exact ⟨start, shutdown, tries, fun _ sending sent => by cases sent⟩

end SspSender

end MoshModel
