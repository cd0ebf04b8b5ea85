import MoshClient.Ssp.ReceiverRuns

namespace MoshModel

namespace SspReceiver

variable {S : Type}

/-- What a rejection leaves: everything, or the queue the throwaway has already culled. -/
def LeftBy (receiver : SspReceiver S) (inst : TransportInstruction) (now : Nat) (after : SspReceiver S) :
    Except SspError (RecvOutcome S) → Prop
  | .ok .duplicate | .error (.protocolVersion _) => after = receiver
  | .ok .noReference =>
    after.quenchUntil = receiver.quenchUntil ∧
      after.received =
        if receiver.holds inst.oldNum = true ∧ 0 < (receiver.kept inst.throwawayNum).length
        then receiver.kept inst.throwawayNum else receiver.received
  | .error (.badDiff _) =>
    after.received = receiver.kept inst.throwawayNum ∧
      after.quenchUntil =
        if receivedQueueCap < (receiver.kept inst.throwawayNum).length then now + quenchWindowMs
        else receiver.quenchUntil
  | _ => True

theorem kept_positive_iff (receiver : SspReceiver S) (throwawayNum : UInt64) :
    0 < (receiver.kept throwawayNum).length ↔ (receiver.processThrowawayUntil throwawayNum).1 = true := by
  rw [List.length_pos_iff_exists_mem]
  unfold processThrowawayUntil
  by_cases survives : (receiver.received.any fun s => throwawayNum ≤ s.num) = true
  · rw [dif_pos survives]
    obtain ⟨s, member, past⟩ := List.any_eq_true.mp survives
    exact iff_of_true ⟨s, mem_kept.mpr ⟨member, of_decide_eq_true past⟩⟩ rfl
  · rw [dif_neg survives]
    apply iff_of_false
    · rintro ⟨s, member⟩
      obtain ⟨held, past⟩ := mem_kept.mp member
      exact survives (List.any_eq_true.mpr ⟨s, held, decide_eq_true past⟩)
    · exact Bool.false_ne_true

/-- The version and the duplicate are looked at before the throwaway is taken; the reference a second time
    and the diff only after it, when it stays taken. -/
theorem rejection_leaves (applyString : S → Bytes → Except WireError S) (receiver : SspReceiver S)
    (inst : TransportInstruction) (now : Nat) :
    let outcome := receiver.processInstruction applyString inst now
    receiver.LeftBy inst now outcome.2 outcome.1 := by
  have handled := receiver.processInstruction_handled applyString inst now
  dsimp only
  generalize receiver.processInstruction applyString inst now = outcome at *
  obtain ⟨result, after⟩ := outcome
  cases handled with
  | version other => rfl
  | duplicate known => rfl
  | unreferenced missing =>
    refine ⟨rfl, (if_neg ?_).symm⟩
    rintro ⟨held, survives⟩
    have taken := (kept_positive_iff _ _).mp survives
    simp [held, taken] at missing
  | culledAway culled queue quench =>
    refine ⟨quench, ?_⟩
    rw [if_pos ⟨culled.2.2.1, (kept_positive_iff _ _).mpr culled.2.2.2⟩]
    exact queue
  | quenched culled queue quench => trivial
  | badDiff culled admits queue quench => exact ⟨queue, quench⟩
  | inserted culled admits queue quench held named applied insertion =>
    unfold insertState
    split <;> trivial

theorem rejection_after_cull :
    ¬∀ (S : Type) (applyString : S → Bytes → Except WireError S) (initial : S) (start : Nat)
      (arrivals : List TimedInstruction) (inst : TransportInstruction) (now : Nat),
      let receiver := (processAll applyString (new initial start) arrivals).1
      let outcome := receiver.processInstruction applyString inst now
      (outcome.1 = .ok .duplicate ∨ outcome.1 = .ok .noReference ∨ ∃ e, outcome.1 = .error e) →
        outcome.2.received = receiver.received ∧ outcome.2.quenchUntil = receiver.quenchUntil := by
  intro claim
  have untouched := claim UserStream UserStream.applyString UserStream.new 0
    [⟨⟨2, 0, 1, 0, 0, [], []⟩, 10⟩] ⟨2, 0, 2, 0, 1, [], []⟩ 20 (.inr (.inl (by decide +kernel)))
  have culled : ((processAll UserStream.applyString (new UserStream.new 0)
      [⟨⟨2, 0, 1, 0, 0, [], []⟩, 10⟩]).1.processInstruction UserStream.applyString
        ⟨2, 0, 2, 0, 1, [], []⟩ 20).2.received.length = 1 := by decide +kernel
  rw [untouched.1] at culled
  exact absurd culled (by decide +kernel)

end SspReceiver

end MoshModel
