import MoshClient.Session.EndToEnd

namespace MoshModel

open Transition Fragmenter

theorem Cut.determined {zlib : Zlib} {calls : List FragmentCall} (steady : Steady calls) {left right : Fragment}
    (leftCut : Cut (sendAll zlib calls).1 left) (rightCut : Cut (sendAll zlib calls).1 right) (id : left.id = right.id)
    (num : left.fragmentNum = right.fragmentNum) : left = right := by
  have consistent := sendAll_consistent zlib calls steady
  obtain ⟨first, firstSent, leftPiece⟩ := leftCut
  obtain ⟨second, secondSent, rightPiece⟩ := rightCut
  have fragments := (consistent.same first firstSent second secondSent left leftPiece right rightPiece id).2
  have whole := sliceFrom_wholeSet _ _ _ _ (consistent.sliced first firstSent left leftPiece)
  rw [← fragments] at rightPiece
  obtain ⟨-, -, leftPlace⟩ := whole.place leftPiece
  obtain ⟨-, -, rightPlace⟩ := whole.place rightPiece
  rw [num, rightPlace] at leftPlace
  exact (Option.some.inj leftPlace).symm

/-- The loop with the room that it takes for granted, on a network that delivers what it likes. -/
def roomyMachine {D F : Type} [MoshDisplay D] (code : LoopCode F) (first : RunLoop D F) :
    Machine (RunLoop D F) RunAction :=
  (runMachine code first).guarded RunLoop.Roomy

instance {D F : Type} [MoshDisplay D] (code : LoopCode F) (first run : RunLoop D F) (action : RunAction) :
    Decidable ((roomyMachine code first).allowed run action) :=
  inferInstanceAs (Decidable (run.allowed action ∧ run.Roomy action))

namespace RunLoop

variable {D F : Type}

def handed (run : RunLoop D F) (action : RunAction) : List Fragment :=
  match action, run.phase with
  | .send _ _ _, .sending _ (fragment :: _) => [fragment]
  | _, _ => []

theorem handed_unsent {run : RunLoop D F} {action : RunAction} {fragment : Fragment}
    (member : fragment ∈ run.handed action) : fragment ∈ unsent run.phase := by
  unfold handed at member
  split at member
  · rename_i sending
    rw [sending, List.mem_singleton.mp member]
    exact List.mem_cons_self ..
  · exact absurd member List.not_mem_nil

variable [MoshDisplay D] {code : LoopCode F} {display : D} {cols rows : Int32} {predictionOn : Bool}
  {family : SocketFamily} {hopIntervalMs : Nat} {trace : List RunAction} {run : RunLoop D F}

theorem run_drives
    (reached : (roomyMachine code (start code display cols rows predictionOn family hopIntervalMs)).Run trace run) :
    let machine := roomyMachine code (start code display cols rows predictionOn family hopIntervalMs)
    ∃ labels config, (senderMachine code.zlib 0 1).Run labels config ∧ Drives [.resize cols rows] trace run config ∧
      ∀ frag ∈ machine.emitted handed machine.init trace, Cut config.sendings frag := by
  intro machine
  have started : (senderMachine code.zlib 0 1).Run [.pushResize cols rows]
      ((SenderConfig.start 0 1).next code.zlib (.pushResize cols rows)) :=
    Machine.Run.start.step ⟨rfl, (by decide : 0 + 1 ≤ isizeMax)⟩
  refine started.simulate (fun trace run _ config => Drives [.resize cols rows] trace run config ∧
    ∀ frag ∈ machine.emitted handed machine.init trace, Cut config.sendings frag) ⟨?_, ?_⟩ ?_ reached
  · refine ⟨rfl, rfl, Nat.le_refl _, rfl, rfl, ?_, Nat.two_pow_pos 64⟩
    exact fun frag member => absurd member List.not_mem_nil
  · exact fun frag member => absurd member List.not_mem_nil
  · intro trace run labels config action before above held allowed
    obtain ⟨drives, cut⟩ := held
    have ran := before.unguard
    obtain ⟨_, _, shows, -⟩ := (run_told ran).standing
    obtain ⟨more, follows, after, -⟩ := drives.step (reachable_ported ⟨_, ran⟩).1 shows.linked allowed.2
      (next_stepped code run action allowed.1)
    obtain ⟨later, sendings⟩ := config.foldl_sendings code.zlib more
    refine ⟨more, follows, after, ?_⟩
    have before : machine.Run trace run := before
    rw [before.emitted_snoc action]
    intro frag member
    rw [show (more.foldl (senderMachine code.zlib 0 1).next config).sendings = config.sendings ++ later from sendings]
    rcases List.mem_append.mp member with old | new
    · exact (cut frag old).more later
    · exact (drives.outgoing frag (handed_unsent new)).more later

/-- On any network whatsoever, the loop drives its sender as a sender of its own is driven, which was given
    the size of the screen and what was typed, and which cut every fragment that goes out. -/
theorem loop_drives_sender (code : LoopCode F) (display : D) (cols rows : Int32) (predictionOn : Bool)
    (family : SocketFamily) (hopIntervalMs : Nat) (trace : List RunAction) (run : RunLoop D F)
    (reached : (roomyMachine code (start code display cols rows predictionOn family hopIntervalMs)).Run trace run) :
    let machine := roomyMachine code (start code display cols rows predictionOn family hopIntervalMs)
    ∃ labels config, (senderMachine code.zlib 0 1).Run labels config ∧
      config.sender = run.wired.loop.sender ∧ config.fragmenter = run.wired.loop.fragmenter ∧
      config.pushed = .resize cols rows :: typedInput trace ∧
      ∀ frag ∈ machine.emitted handed machine.init trace, ∃ sending ∈ config.sendings, frag ∈ sending.fragments := by
  obtain ⟨labels, config, above, drives, cut⟩ := run_drives reached
  exact ⟨labels, config, above, drives.sender, drives.fragmenter, drives.pushed, cut⟩

/-- On any network whatsoever, two fragments that a session seals under one id and one number are the same. -/
theorem wire_fragments_agree (code : LoopCode F) (display : D) (cols rows : Int32) (predictionOn : Bool)
    (family : SocketFamily) (hopIntervalMs : Nat) (trace : List RunAction) (run : RunLoop D F)
    (reached : (roomyMachine code (start code display cols rows predictionOn family hopIntervalMs)).Run trace run) :
    let machine := roomyMachine code (start code display cols rows predictionOn family hopIntervalMs)
    ∀ left ∈ machine.emitted handed machine.init trace, ∀ right ∈ machine.emitted handed machine.init trace,
      left.id = right.id → left.fragmentNum = right.fragmentNum → left = right := by
  intro machine left leftSent right rightSent id num
  obtain ⟨labels, config, above, drives, cut⟩ := run_drives reached
  have sound := SenderConfig.reachable_sound ⟨labels, above⟩
  have sendings : (sendAll code.zlib (config.sendings.map Sending.call)).1 = config.sendings :=
    congrArg Prod.fst sound.sent
  have leftCut := cut left leftSent
  have rightCut := cut right rightSent
  rw [← sendings] at leftCut rightCut
  exact leftCut.determined (sound_steady sound) rightCut id num

def resentActions : List RunAction :=
  [.wake 300, .command (.input [104, 105]), .drained, .settle false, .nothing, .wake 310, .drained, .send 310 310 false,
    .settle false, .nothing, .wake 3400, .drained, .send 3400 3400 false]

def resentRun : RunLoop PlainScreen Nat := resentActions.foldl (roomyMachine sampleCode sampleStart).next sampleStart

theorem resentRun_run : (roomyMachine sampleCode sampleStart).Run resentActions resentRun :=
  Machine.Run.start.follow (by decide +kernel)

theorem loop_drives_sender_resent : ∃ labels config, (senderMachine sampleCode.zlib 0 1).Run labels config ∧
    config.sender = resentRun.wired.loop.sender ∧ config.pushed = [.resize 80 24, .byte 104, .byte 105] := by
  obtain ⟨labels, config, above, sender, -, pushed, -⟩ := loop_drives_sender sampleCode (MoshDisplay.newBlank 80 24) 80 24
    true .v4 10000 resentActions resentRun resentRun_run
  exact ⟨labels, config, above, sender, pushed⟩

theorem wire_fragments_agree_resent :
    let machine := roomyMachine sampleCode sampleStart
    let sent := machine.emitted handed machine.init resentActions
    sent.length = 2 ∧ (∀ frag ∈ sent, frag.id = (sent.headD sampleFragment).id) ∧
      ∀ left ∈ sent, ∀ right ∈ sent, left.id = right.id → left.fragmentNum = right.fragmentNum → left = right :=
  ⟨by decide +kernel, by decide +kernel, wire_fragments_agree sampleCode (MoshDisplay.newBlank 80 24) 80 24 true .v4 10000
    resentActions resentRun resentRun_run⟩

end RunLoop

end MoshModel
