import MoshClient.Session.Tracking
import MoshClient.Session.SessionRuns

namespace MoshModel

namespace SessionLoop

variable {D : Type} [MoshDisplay D] (loop : SessionLoop D)

/-- The guesses that a burst goes on from: a fresh run starts where the engine cursor sits. -/
def placed : PredictionState :=
  let (col, row, _) := MoshDisplay.cursor loop.display.engine
  if loop.prediction.cursor.isNone then { loop.prediction with cursor := some (col, row) } else loop.prediction

def shownCols : Int32 := uint64AsInt32 (MoshDisplay.cols loop.display.engine)

def shownRows : Int32 := uint64AsInt32 (MoshDisplay.rows loop.display.engine)

/-- A burst that is guessed: one typed, not pasted, with prediction on. -/
def Guessed (bytes : Bytes) : Prop := bytes.length ≤ pasteThreshold ∧ loop.prediction.enabled = true

instance (bytes : Bytes) : Decidable (loop.Guessed bytes) := inferInstanceAs (Decidable (_ ∧ _))

theorem predictInput_frame (bytes : Bytes) :
    (loop.predictInput bytes).sender = loop.sender ∧ (loop.predictInput bytes).fragmenter = loop.fragmenter ∧
      (loop.predictInput bytes).display = loop.display := by
  unfold predictInput
  dsimp only
  split
  · exact ⟨rfl, rfl, rfl⟩
  · split <;> exact ⟨rfl, rfl, rfl⟩

theorem predictInput_guessed {bytes : Bytes} (guessed : loop.Guessed bytes) :
    (loop.predictInput bytes).prediction =
      loop.placed.feed loop.shownCols loop.shownRows (loop.sender.queue.back.num + 1) bytes := by
  obtain ⟨short, enabled⟩ := guessed
  have typed : ¬pasteThreshold < bytes.length := Nat.not_lt.mpr short
  have on : ¬(!loop.prediction.enabled) = true := by simp [enabled]
  unfold predictInput
  rw [if_neg typed]
  dsimp only
  rw [if_neg on]
  rfl

theorem predictInput_unguessed {bytes : Bytes} (unguessed : ¬loop.Guessed bytes) :
    (loop.predictInput bytes).prediction = loop.prediction := by
  unfold predictInput
  by_cases paste : pasteThreshold < bytes.length
  · rw [if_pos paste]
  · have off : (!loop.prediction.enabled) = true := by
      rw [Bool.not_eq_true']
      exact Bool.eq_false_iff.mpr fun enabled => unguessed ⟨Nat.not_lt.mp paste, enabled⟩
    rw [if_neg paste]
    dsimp only
    rw [if_pos off]

theorem placed_tracked {origins : List Nat} {guesses : List Guess}
    (tracked : PredictionState.Tracked loop.prediction origins guesses) :
    PredictionState.Tracked loop.placed origins guesses := by
  unfold placed
  dsimp only
  split
  · exact ⟨tracked.cells, tracked.frames, tracked.origins⟩
  · exact tracked

theorem drain_input (bytes : Bytes) (now : Nat) (going : loop.sender.shutdownInProgress = false) :
    let after := loop.drainCommand now (.input bytes)
    after.sender = loop.sender.setCurrentState (loop.sender.currentState.pushBytes bytes) ∧
      after.fragmenter = loop.fragmenter ∧
      (loop.Guessed bytes → after.prediction =
        loop.placed.feed loop.shownCols loop.shownRows (loop.sender.queue.back.num + 1) bytes) ∧
      (¬loop.Guessed bytes → after.prediction = loop.prediction) := by
  intro after
  let pushed : SessionLoop D :=
    { loop with sender := loop.sender.setCurrentState (loop.sender.currentState.pushBytes bytes) }
  have drained : after = pushed.predictInput bytes := by
    simp only [after, drainCommand, going, Bool.false_eq_true, if_false]
    rfl
  obtain ⟨sender, fragmenter, -⟩ := pushed.predictInput_frame bytes
  rw [drained]
  exact ⟨sender, fragmenter, pushed.predictInput_guessed, pushed.predictInput_unguessed⟩

structure Settled (loop after : SessionLoop D) : Prop where
  queue : after.sender.queue = loop.sender.queue ∨
    ∃ ack, after.sender.queue = loop.sender.queue.processAcknowledgmentThrough ack
  current : after.sender.currentState = loop.sender.currentState
  shutdown : after.sender.shutdownInProgress = loop.sender.shutdownInProgress
  fragmenter : after.fragmenter = loop.fragmenter
  prediction : after.prediction = loop.prediction ∨
    ∃ echoAck, after.prediction = (loop.retirePredictions echoAck).2.prediction

theorem handleInstruction_settled (addresses : Nat → Address) (inst : TransportInstruction) (now : Nat) :
    Settled loop (loop.handleInstruction addresses inst now) := by
  have handled := loop.handleInstruction_cases addresses inst now
  generalize loop.receiver.processInstruction (HostStreamState.applyString addresses) inst now = outcome at *
  generalize loop.handleInstruction addresses inst now = after at *
  cases handled with
  | kept _ _ _ _ _ told =>
    exact ⟨told.queue, told.current, told.shutdown, told.fragmenter, .inl told.prediction⟩
  | @shown num _ _ _ heard _ _ _ _ told =>
    obtain ⟨-, -, sender, fragmenter, echoAck, prediction⟩ := heard.showLatest_spec num
    have retired : (heard.retirePredictions echoAck).2.prediction =
        (loop.retirePredictions echoAck).2.prediction := by
      unfold retirePredictions
      rw [told.prediction]
    constructor
    · rw [sender]
      exact told.queue
    · rw [sender]
      exact told.current
    · rw [sender]
      exact told.shutdown
    · exact fragmenter.trans told.fragmenter
    · exact .inr ⟨echoAck, prediction.trans retired⟩

end SessionLoop

end MoshModel
