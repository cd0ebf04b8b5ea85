import MoshClient.Session.RunLoop
import MoshClient.Library.Simulation

namespace MoshModel

open Transition

namespace RunLoop

variable {D F : Type}

/-- The sockets and the counters around them, as a pass over them at the end of an iteration leaves them. -/
inductive Hopped (run : RunLoop D F) (now : Nat) : RunLoop D F → Prop
  | stayed : Hopped run now run
  | hopped (choice : run.hopIntervalMs < now - run.lastPortChoice)
      (silent : run.hopIntervalMs < now - run.wired.loop.lastRoundtripSuccess) :
      Hopped run now { run with
        socks := run.socks ++ [run.portsOpened], lastPortChoice := now, portsOpened := run.portsOpened + 1 }

theorem maybeHopPort_hopped (run : RunLoop D F) (now : Nat) (bound : Bool) :
    Hopped run now (run.maybeHopPort now bound) := by
  unfold maybeHopPort
  split
  · exact .stayed
  · rename_i choice
    split
    · exact .stayed
    · rename_i silent
      split
      · exact .hopped (Nat.lt_of_not_le choice) (Nat.lt_of_not_le silent)
      · exact .stayed

/-- The state of the loop between the sockets and the two ways to end. -/
def settled (run : RunLoop D F) (now : Nat) (bound : Bool) : RunLoop D F :=
  (run.maybeHopPort now bound).pruneSockets now

theorem settled_frame (run : RunLoop D F) (now : Nat) (bound : Bool) :
    let settled := run.settled now bound
    settled.wired = run.wired ∧ settled.clock = run.clock ∧ settled.mtu = run.mtu ∧
      settled.hopIntervalMs = run.hopIntervalMs ∧ settled.nowMs = run.nowMs := by
  have hopped := run.maybeHopPort_hopped now bound
  unfold settled
  generalize run.maybeHopPort now bound = after at *
  cases hopped with
  | stayed => exact ⟨rfl, rfl, rfl, rfl, rfl⟩
  | hopped choice silent => exact ⟨rfl, rfl, rfl, rfl, rfl⟩

/-- The shutdown of our own is through: acknowledged, or given up. -/
def ShutDown (sender : SspSender UserStream) (now : Nat) : Prop :=
  sender.shutdownInProgress = true ∧
    (sender.shutdownAcknowledged = true ∨ sender.shutdownAckTimedOut now = true)

variable [MoshDisplay D]

/-- Everything a step of the loop thread can do, and the calls in between. -/
inductive Stepped (code : LoopCode F) (run : RunLoop D F) : RunAction → RunLoop D F → Prop
  | woke {now : Nat} (standing : run.phase = .waking) (forward : run.clock ≤ now) :
      Stepped code run (.wake now) { run with phase := .draining now, clock := now, nowMs := now }
  | terminated {now : Nat} (standing : run.phase = .draining now) :
      Stepped code run (.command .terminate) { run with phase := .finished }
  | commanded {now : Nat} {command : SessionCommand} (standing : run.phase = .draining now)
      (continues : command ≠ .terminate) :
      Stepped code run (.command command)
        { run with wired := run.wired.next code.toWireCode (.inner (.drain command now)) }
  | failed {now : Nat} {error : String} (standing : run.phase = .draining now)
      (fatal : run.wired.loop.fatal = some error) :
      Stepped code run .drained (run.ended false (some error))
  | ticked {now : Nat} {out : List Fragment} (standing : run.phase = .draining now)
      (sound : run.wired.loop.fatal = none)
      (output : out = ((run.wired.loop.sender.tick code.zlib now (run.rto code) (run.sendInterval code)
        (fragmentMtu run.mtu) run.wired.loop.fragmenter).sending.map Sending.fragments).getD []) :
      Stepped code run .drained { run with
        wired := run.wired.next code.toWireCode
          (.inner (.tick now (run.rto code) (run.sendInterval code) (fragmentMtu run.mtu)))
        rtoMs := run.rto code
        phase := .sending now out }
  | sent {top now stamped mtu : Nat} {oversize : Bool} {fragment : Fragment} {out : List Fragment}
      (standing : run.phase = .sending top (fragment :: out)) (forward : run.clock ≤ now) (later : now ≤ stamped)
      (shrunk : mtu = if (run.wired.sendFragment code.toWireCode fragment now stamped).1.isSome ∧ oversize
        then defaultSendMtu else run.mtu) :
      Stepped code run (.send now stamped oversize) { run with
        wired := run.wired.next code.toWireCode (.send fragment now stamped)
        mtu := mtu
        phase := .sending top out
        clock := stamped }
  | quit {now : Nat} {bound : Bool} (standing : run.phase = .sending now [])
      (acknowledged : run.wired.loop.sender.counterpartyShutdownAcknowledged run.wired.loop.fragmenter = true) :
      Stepped code run (.settle bound) ((run.settled now bound).ended true none)
  | shutDown {now : Nat} {bound : Bool} (standing : run.phase = .sending now [])
      (staying : run.wired.loop.sender.counterpartyShutdownAcknowledged run.wired.loop.fragmenter = false)
      (through : ShutDown run.wired.loop.sender now) :
      Stepped code run (.settle bound)
        ((run.settled now bound).ended run.wired.loop.sender.shutdownAcknowledged none)
  | waited {now wait : Nat} {bound : Bool} (standing : run.phase = .sending now [])
      (staying : run.wired.loop.sender.counterpartyShutdownAcknowledged run.wired.loop.fragmenter = false)
      (going : ¬ShutDown run.wired.loop.sender now) (least : 1 ≤ wait) (most : wait ≤ pollCapMs) :
      Stepped code run (.settle bound) { run.settled now bound with
        wired := run.wired.next code.toWireCode
          (.inner (.waitTime now (run.rto code) (run.sendInterval code)))
        phase := .receiving (some wait) (run.settled now bound).socks.dropLast.reverse 0 }
  | received {wait : Option Nat} {older : List Nat} {drained now sampled : Nat} {bytes : Bytes}
      {addresses : Nat → Address} (standing : run.phase = .receiving wait older drained)
      (forward : run.clock ≤ now) (later : now ≤ sampled) :
      Stepped code run (.receive bytes addresses now sampled) { run with
        wired := run.wired.next code.toWireCode (.datagram bytes addresses now sampled)
        phase := readOn wait older drained
        clock := sampled }
  | passed {wait : Option Nat} {older : List Nat} {drained : Nat}
      (standing : run.phase = .receiving wait older drained) :
      Stepped code run .nothing { run with phase := passOn wait older drained }
  | called (call : HandleCall) :
      Stepped code run (.call call)
        { run with wired := run.wired.next code.toWireCode (.inner call.action) }

theorem settle_stepped (code : LoopCode F) (run : RunLoop D F) {now : Nat} (bound : Bool)
    (standing : run.phase = .sending now []) : Stepped code run (.settle bound) (run.settle code now bound) := by
  obtain ⟨wired, -⟩ := run.settled_frame now bound
  unfold settle
  rw [show (run.maybeHopPort now bound).pruneSockets now = run.settled now bound from rfl]
  dsimp only
  rw [wired]
  cases quit : run.wired.loop.sender.counterpartyShutdownAcknowledged run.wired.loop.fragmenter with
  | true => exact .quit standing quit
  | false =>
    rw [if_neg Bool.false_ne_true]
    by_cases through : ShutDown run.wired.loop.sender now
    · rw [if_pos (by simpa [ShutDown] using through)]
      exact .shutDown standing quit through
    · rw [if_neg (by simpa [ShutDown] using through)]
      have rto : (run.settled now bound).rto code = run.rto code := by
        unfold RunLoop.rto
        rw [wired]
      have sendInterval : (run.settled now bound).sendInterval code = run.sendInterval code := by
        unfold RunLoop.sendInterval
        rw [wired]
      rw [rto, sendInterval]
      exact .waited standing quit through (Nat.le_max_left _ _) (Nat.max_le.mpr ⟨by decide, Nat.min_le_right _ _⟩)

theorem drainCommand_stepped (code : LoopCode F) (run : RunLoop D F) {now : Nat} (command : SessionCommand)
    (standing : run.phase = .draining now) :
    Stepped code run (.command command) (run.drainCommand code now command) := by
  cases command with
  | terminate => exact .terminated standing
  | input bytes => exact .commanded standing (fun same => by cases same)
  | resize width height => exact .commanded standing (fun same => by cases same)
  | startShutdown => exact .commanded standing (fun same => by cases same)

theorem tick_stepped (code : LoopCode F) (run : RunLoop D F) {now : Nat}
    (standing : run.phase = .draining now) : Stepped code run .drained (run.tick code now) := by
  unfold tick
  cases fatal : run.wired.loop.fatal with
  | some error => exact .failed standing fatal
  | none => exact .ticked standing fatal rfl

theorem sendFragment_eq (code : LoopCode F) (run : RunLoop D F) (fragment : Fragment) (now stamped : Nat)
    (oversize : Bool) :
    run.sendFragment code fragment now stamped oversize = { run with
      wired := run.wired.next code.toWireCode (.send fragment now stamped)
      mtu := if (run.wired.sendFragment code.toWireCode fragment now stamped).1.isSome ∧ oversize
        then defaultSendMtu else run.mtu } := by
  simp only [sendFragment, WiredLoop.next]

theorem send_stepped (code : LoopCode F) (run : RunLoop D F) {top now stamped : Nat} (oversize : Bool)
    {fragment : Fragment} {out : List Fragment} (standing : run.phase = .sending top (fragment :: out))
    (forward : run.clock ≤ now) (later : now ≤ stamped) :
    Stepped code run (.send now stamped oversize)
      ({ run with phase := .sending top out, clock := stamped }.sendFragment code fragment now stamped
        oversize) := by
  rw [sendFragment_eq]
  exact .sent standing forward later rfl

theorem next_stepped (code : LoopCode F) (run : RunLoop D F) (action : RunAction) (allowed : run.allowed action) :
    Stepped code run action (run.next code action) := by
  unfold RunLoop.allowed at allowed
  unfold next
  cases action with
  | call call => exact .called call
  | wake now =>
    cases standing : run.phase with
    | waking =>
      rw [standing] at allowed
      exact .woke standing allowed
    | draining _ | sending _ _ | receiving _ _ _ | finished =>
      rw [standing] at allowed
      exact allowed.elim
  | command command =>
    cases standing : run.phase with
    | draining now => exact run.drainCommand_stepped code command standing
    | waking | sending _ _ | receiving _ _ _ | finished =>
      rw [standing] at allowed
      exact allowed.elim
  | drained =>
    cases standing : run.phase with
    | draining now => exact run.tick_stepped code standing
    | waking | sending _ _ | receiving _ _ _ | finished =>
      rw [standing] at allowed
      exact allowed.elim
  | send now stamped oversize =>
    cases standing : run.phase with
    | sending top out =>
      rw [standing] at allowed
      cases out with
      | nil => exact allowed.elim
      | cons fragment out => exact run.send_stepped code oversize standing allowed.1 allowed.2
    | waking | draining _ | receiving _ _ _ | finished =>
      rw [standing] at allowed
      exact allowed.elim
  | settle bound =>
    cases standing : run.phase with
    | sending top out =>
      rw [standing] at allowed
      cases out with
      | nil => exact run.settle_stepped code bound standing
      | cons fragment out => exact allowed.elim
    | waking | draining _ | receiving _ _ _ | finished =>
      rw [standing] at allowed
      exact allowed.elim
  | receive bytes addresses now sampled =>
    cases standing : run.phase with
    | receiving wait older drained =>
      rw [standing] at allowed
      exact .received standing allowed.1 allowed.2
    | waking | draining _ | sending _ _ | finished =>
      rw [standing] at allowed
      exact allowed.elim
  | nothing =>
    cases standing : run.phase with
    | receiving wait older drained => exact .passed standing
    | waking | draining _ | sending _ _ | finished =>
      rw [standing] at allowed
      exact allowed.elim

end RunLoop

end MoshModel
