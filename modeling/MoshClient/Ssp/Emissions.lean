import MoshClient.Ssp.SenderRuns
import MoshClient.Fragment.Integrity

namespace MoshModel

open Transition SenderConfig

/-- The order of the numbers in an instruction: the throwaway number at most the base, the base below the
    new state, but for an empty retransmission of the shutdown state. -/
theorem instruction_order (zlib : Zlib) (start sendMindelay : Nat) (config : SenderConfig)
    (reached : (senderMachine zlib start sendMindelay).Reachable config)
    (now rto sendInterval mtu : Nat) (allowed : config.allowed (.tick now rto sendInterval mtu)) :
    ∀ sending ∈ (config.sender.tick zlib now rto sendInterval mtu config.fragmenter).sending,
      let inst := sending.call.inst
      inst.throwawayNum ≤ inst.oldNum ∧ inst.oldNum ≤ inst.newNum ∧
        (inst.oldNum = inst.newNum → config.sender.shutdownInProgress = true ∧
          inst.newNum = shutdownNum ∧ inst.diff = [] ∧
          (config.sender.queue.front.num = shutdownNum ∨ 100 ≤
            (UserStream.diffFrom config.sender.currentState config.sender.queue.front.state).length)) := by
  intro sending framed
  obtain ⟨sound, -, -, fresh⟩ :=
    tick_step (reachable_sound reached) now rto sendInterval mtu allowed.2
  have recorded : sending ∈ (config.tick zlib now rto sendInterval mtu).sendings :=
    List.mem_append_right _ (Option.mem_toList.mpr framed)
  have faithful := sound.faithful sending recorded
  exact ⟨faithful.throwaway, faithful.advances, (fresh sending framed).marker⟩

def SenderAction.InSession : SenderAction → Prop
  | .tick _ rto sendInterval _ | .waitTime _ rto sendInterval =>
    50 ≤ rto ∧ rto ≤ 1000 ∧ 20 ≤ sendInterval ∧ sendInterval ≤ 250
  | _ => True

instance (action : SenderAction) : Decidable action.InSession :=
  match action with
  | .tick _ _ _ _ | .waitTime _ _ _ => inferInstanceAs (Decidable (_ ∧ _))
  | .pushBytes _ | .pushResize _ _ | .startShutdown _ | .acknowledge _ | .setAckNum _ | .setDataAck
  | .remoteHeard _ => inferInstanceAs (Decidable True)

def unackedShutdown : List SenderAction :=
  [.pushBytes (List.replicate 100 97), .startShutdown 0, .tick 20 50 20 500]

def unackedConfig : SenderConfig := unackedShutdown.foldl (senderMachine sampleZlib 0 1).next (start 0 1)

theorem unackedConfig_run : (senderMachine sampleZlib 0 1).Run unackedShutdown unackedConfig :=
  Machine.Run.start.follow (by decide +kernel)

theorem instruction_order_unacked :
    ∃ sending ∈ (unackedConfig.sender.tick sampleZlib 40 50 20 500 unackedConfig.fragmenter).sending,
      sending.call.inst.throwawayNum ≤ sending.call.inst.oldNum ∧
        sending.call.inst.oldNum ≤ sending.call.inst.newNum := by
  have emits : (unackedConfig.sender.tick sampleZlib 40 50 20 500
      unackedConfig.fragmenter).sending.isSome = true := by decide +kernel
  obtain ⟨sending, framed⟩ := Option.isSome_iff_exists.mp emits
  have order := instruction_order sampleZlib 0 1 unackedConfig ⟨_, unackedConfig_run⟩ 40 50 20 500
    (by decide +kernel) sending framed
  exact ⟨sending, framed, order.1, order.2.1⟩

theorem shutdown_retransmission_names_itself :
    ¬∀ (zlib : Zlib) (start sendMindelay : Nat) (trace : List SenderAction) (config : SenderConfig),
      (senderMachine zlib start sendMindelay).Run trace config → (∀ action ∈ trace, action.InSession) →
      ∀ now rto sendInterval mtu, (SenderAction.tick now rto sendInterval mtu).InSession →
        config.allowed (.tick now rto sendInterval mtu) →
        ∀ sending ∈ (config.sender.tick zlib now rto sendInterval mtu config.fragmenter).sending,
          sending.call.inst.throwawayNum ≤ sending.call.inst.oldNum ∧
            sending.call.inst.oldNum < sending.call.inst.newNum := by
  intro claim
  have strict := claim sampleZlib 0 1 unackedShutdown unackedConfig unackedConfig_run (by decide) 40 50 20 500
    (by decide) (by decide +kernel)
  have nums : (unackedConfig.sender.tick sampleZlib 40 50 20 500 unackedConfig.fragmenter).sending.map
      (fun sending => (sending.call.inst.oldNum, sending.call.inst.newNum)) =
        some (shutdownNum, shutdownNum) := by decide +kernel
  obtain ⟨sending, framed, same⟩ := Option.map_eq_some_iff.mp nums
  have less := (strict sending framed).2
  rw [Prod.mk.injEq] at same
  rw [same.1, same.2] at less
  exact absurd less (UInt64.lt_irrefl _)

/-- The header of a framed instruction determines its diff, so no call reuses an id for another diff. -/
theorem sound_steady {zlib : Zlib} {config : SenderConfig} (sound : config.Sound zlib) :
    Fragmenter.Steady (config.sendings.map Sending.call) := by
  obtain ⟨base, queued, chronicle, rebased⟩ := sound.traced
  have same_diff : ∀ earlier ∈ config.sendings.map Sending.call,
      ∀ later ∈ config.sendings.map Sending.call,
        earlier.inst.header = later.inst.header → earlier.inst.diff = later.inst.diff := by
    intro earlier earlierMember later laterMember header
    obtain ⟨first, firstSent, rfl⟩ := List.mem_map.mp earlierMember
    obtain ⟨second, secondSent, rfl⟩ := List.mem_map.mp laterMember
    obtain ⟨firstOld, firstTail, firstFrom, firstTo, firstDiff, -⟩ := (sound.faithful first firstSent).logs
    obtain ⟨secondOld, secondTail, secondFrom, secondTo, secondDiff, -⟩ :=
      (sound.faithful second secondSent).logs
    simp only [TransportInstruction.header, FragmentHeader.mk.injEq] at header
    have froms : firstOld = secondOld := chronicle.functional _ firstFrom _ secondFrom header.2.1
    have tos : firstOld ++ firstTail = secondOld ++ secondTail :=
      chronicle.functional _ firstTo _ secondTo header.2.2.1
    rw [firstDiff, secondDiff, tos, froms]
  refine List.Pairwise.isChain (List.Pairwise.filter _ ?_)
  exact List.pairwise_of_forall_mem_list same_diff

/-- A fragment id determines its bytes, over a whole run of one sender into one fragmenter. -/
theorem fragment_id_determines_bytes (zlib : Zlib) (start sendMindelay : Nat) (config : SenderConfig)
    (reached : (senderMachine zlib start sendMindelay).Reachable config) :
    let fragments := config.sendings.flatMap Sending.fragments
    (∀ left ∈ fragments, ∀ right ∈ fragments, left.id = right.id →
        left.fragmentNum = right.fragmentNum →
          left.final = right.final ∧ left.contents = right.contents) ∧
      fragments.Pairwise fun earlier later => earlier.id ≤ later.id := by
  have sound := reachable_sound reached
  have consistent := Fragmenter.sendAll_consistent zlib _ (sound_steady sound)
  rw [sound.sent] at consistent
  refine ⟨?_, consistent.ordered⟩
  intro left leftMember right rightMember sameId sameNum
  obtain ⟨first, firstSent, leftPiece⟩ := List.mem_flatMap.mp leftMember
  obtain ⟨second, secondSent, rightPiece⟩ := List.mem_flatMap.mp rightMember
  have fragments := (consistent.same first firstSent second secondSent left leftPiece right rightPiece
    sameId).2
  have whole := Fragmenter.sliceFrom_wholeSet _ _ _ _ (consistent.sliced first firstSent left leftPiece)
  rw [← fragments] at rightPiece
  obtain ⟨-, -, leftPlace⟩ := whole.place leftPiece
  obtain ⟨-, -, rightPlace⟩ := whole.place rightPiece
  rw [sameNum, rightPlace] at leftPlace
  rw [Option.some.inj leftPlace]
  exact ⟨rfl, rfl⟩

def resizedMtu : List SenderAction :=
  [.pushBytes [104, 105], .tick 8 1000 250 500, .tick 250 1000 250 500, .tick 3400 1000 250 30,
    .acknowledge 1, .setAckNum 4, .pushResize 80 24, .tick 3700 1000 250 30, .tick 3960 1000 250 30]

theorem fragment_id_determines_bytes_resized :
    let config := resizedMtu.foldl (senderMachine sampleZlib 0 1).next (start 0 1)
    5 ≤ (config.sendings.flatMap Sending.fragments).length ∧
      (config.sendings.flatMap Sending.fragments).Pairwise fun earlier later => earlier.id ≤ later.id :=
  ⟨by decide +kernel, (fragment_id_determines_bytes sampleZlib 0 1 _
    ⟨resizedMtu, Machine.Run.start.follow (by decide +kernel)⟩).2⟩

end MoshModel
