import MoshClient.Session.EndToEnd
import MoshClient.Fragment.Slicing

namespace MoshModel

open Transition Fragmenter

theorem Fragmenter.send_fit (zlib : Zlib) (fragmenter : Fragmenter) (call : FragmentCall) :
    ∀ frag ∈ (fragmenter.send zlib call).1.fragments, frag.tostring.length ≤ call.mtu := by
  intro frag member
  by_cases room : fragHeaderLen < call.mtu
  · have sliced := fragmenter.makeFragments_sliced zlib call.inst room
    unfold send at member
    generalize fragmenter.makeFragments zlib call.inst call.mtu = made at sliced member
    obtain ⟨result, after⟩ := made
    cases sliced with
    | tooMany beyond => exact absurd member List.not_mem_nil
    | cut within length sizes =>
      have small := (sizes frag member).1
      rw [frag.tostring_length]
      omega
  · unfold send at member
    rw [makeFragments_refused zlib fragmenter call.inst (Nat.le_of_not_lt room)] at member
    exact absurd member List.not_mem_nil

theorem SspSender.tick_fit {S : Type} [DecidableEq S] [SspSentState S] (zlib : Zlib) (sender : SspSender S)
    (now rto sendInterval mtu : Nat) (fragmenter : Fragmenter) :
    ∀ frag ∈ ((sender.tick zlib now rto sendInterval mtu fragmenter).sending.map Sending.fragments).getD [],
      frag.tostring.length ≤ mtu := by
  obtain ⟨-, -, -, ⟨silent, -, -⟩ | ⟨base, inst, -, -, sending, -⟩⟩ :=
    sender.tick_due zlib now rto sendInterval mtu fragmenter
  · rw [silent]
    exact fun frag member => absurd member List.not_mem_nil
  · rw [sending]
    exact fragmenter.send_fit zlib { inst := inst, mtu := mtu }

theorem defaultSendMtu_le_mtuFor (family : SocketFamily) : defaultSendMtu ≤ mtuFor family := by
  cases family <;> decide

namespace RunLoop

variable {D F : Type}

theorem datagrams_send (code : LoopCode F) {run : RunLoop D F} {top : Nat} {fragment : Fragment}
    {out : List Fragment} (sending : run.phase = .sending top (fragment :: out)) (now stamped : Nat)
    (oversize : Bool) :
    run.datagrams code (.send now stamped oversize) =
      (run.wired.sendFragment code.toWireCode fragment now stamped).1.toList := by
  unfold datagrams
  split
  · rename_i same standing
    cases same
    rw [sending] at standing
    cases standing
    rfl
  · rename_i other
    exact absurd sending (other _ _ _ _ _ _ rfl)

/-- The datagrams that the socket turned down as too long for the path. -/
def refused (code : LoopCode F) (run : RunLoop D F) : RunAction → List Bytes
  | .send now stamped true => run.datagrams code (.send now stamped true)
  | _ => []

/-- The path's MTU has come down to a bound, and what the last tick cut keeps to it. -/
structure Fitting (bound : Nat) (run : RunLoop D F) : Prop where
  least : defaultSendMtu ≤ run.mtu
  within : run.mtu ≤ bound
  cut : ∀ frag ∈ unsent run.phase, frag.tostring.length ≤ fragmentMtu bound

variable {bound : Nat} {run after : RunLoop D F} {code : LoopCode F} {action : RunAction}

theorem Fitting.of_fields (fitting : Fitting bound run) (mtu : after.mtu = run.mtu)
    (unsent : unsent after.phase = []) : Fitting bound after := by
  refine ⟨?_, ?_, ?_⟩
  · rw [mtu]
    exact fitting.least
  · rw [mtu]
    exact fitting.within
  · rw [unsent]
    exact fun frag member => absurd member List.not_mem_nil

variable [MoshDisplay D]

theorem Fitting.step (fitting : Fitting bound run) (stepped : Stepped code run action after) :
    Fitting bound after := by
  cases stepped with
  | woke standing forward => exact fitting.of_fields rfl rfl
  | terminated standing => exact fitting.of_fields rfl rfl
  | commanded standing continues => exact ⟨fitting.least, fitting.within, fitting.cut⟩
  | failed standing fatal => exact fitting.of_fields rfl rfl
  | ticked standing sound output =>
    refine ⟨fitting.least, fitting.within, ?_⟩
    have lower : fragmentMtu run.mtu ≤ fragmentMtu bound := Nat.sub_le_sub_right fitting.within _
    intro frag member
    rw [unsent, output] at member
    exact Nat.le_trans (SspSender.tick_fit code.zlib _ _ _ _ _ _ frag member) lower
  | @sent top now stamped mtu oversize fragment out sending forward later shrunk =>
    have kept : ∀ frag ∈ out, frag.tostring.length ≤ fragmentMtu bound := by
      intro frag member
      refine fitting.cut frag ?_
      rw [sending]
      exact List.mem_cons_of_mem _ member
    have least := fitting.least
    have within := fitting.within
    refine ⟨?_, ?_, kept⟩
    · dsimp only
      rw [shrunk]
      split <;> omega
    · dsimp only
      rw [shrunk]
      split <;> omega
  | @quit now bound _ _ | @shutDown now bound _ _ _ | @waited now _ bound _ _ _ _ _ =>
    obtain ⟨-, -, mtu, -⟩ := run.settled_frame now bound
    exact fitting.of_fields mtu rfl
  | received standing forward later => exact fitting.of_fields rfl (readOn_unsent _ _ _)
  | passed standing => exact fitting.of_fields rfl (passOn_unsent _ _ _)
  | called call => exact ⟨fitting.least, fitting.within, fitting.cut⟩

omit [MoshDisplay D] in
theorem Fitting.datagrams (fitting : Fitting bound run)
    (expands : ∀ nonce packet ct, code.encrypt nonce packet = some ct → ct.length = packet.length + tagLen) :
    ∀ bytes ∈ run.datagrams code action, bytes.length ≤ bound := by
  intro bytes member
  obtain ⟨frag, unsent, header, sent⟩ := datagrams_unsent member
  have long := MoshSealer.sealDatagram_length expands run.wired.sealer header frag.tostring sent
  have small := fitting.cut frag unsent
  have least := Nat.le_trans fitting.least fitting.within
  unfold fragmentMtu at small
  unfold defaultSendMtu at least
  omega

theorem Stepped.mtu (stepped : Stepped code run action after) :
    after.mtu = if run.refused code action = [] then run.mtu else defaultSendMtu := by
  have quiet : ∀ {other : RunLoop D F}, other.mtu = run.mtu → run.refused code action = [] →
      other.mtu = if run.refused code action = [] then run.mtu else defaultSendMtu := by
    intro other same none
    rw [same, if_pos none]
  cases stepped with
  | woke _ _ | terminated _ | commanded _ _ | failed _ _ | ticked _ _ _ | received _ _ _ | passed _ | called _ =>
    exact quiet rfl rfl
  | @sent top now stamped mtu oversize fragment out sending forward later shrunk =>
    have output : run.refused code (.send now stamped oversize) =
        if oversize then (run.wired.sendFragment code.toWireCode fragment now stamped).1.toList else [] := by
      cases oversize with
      | false => rfl
      | true => exact datagrams_send code sending now stamped true
    dsimp only
    rw [shrunk, output]
    generalize (run.wired.sendFragment code.toWireCode fragment now stamped).1 = datagram
    cases oversize <;> cases datagram <;> simp
  | @quit now bound sending acknowledged => exact quiet (run.settled_frame now bound).2.2.1 rfl
  | @shutDown now bound sending staying through => exact quiet (run.settled_frame now bound).2.2.1 rfl
  | @waited now wait bound sending staying going least most => exact quiet (run.settled_frame now bound).2.2.1 rfl

theorem follows_fit (first : RunLoop D F)
    (expands : ∀ nonce packet ct, code.encrypt nonce packet = some ct → ct.length = packet.length + tagLen)
    {later : List RunAction} (fitting : Fitting bound run) (follows : (runMachine code first).Follows run later) :
    ∀ bytes ∈ (runMachine code first).emitted (datagrams code) run later, bytes.length ≤ bound := by
  induction later generalizing run with
  | nil => exact fun bytes member => absurd member List.not_mem_nil
  | cons action later ih =>
    obtain ⟨allowed, rest⟩ := follows
    intro bytes member
    rcases List.mem_append.mp member with sent | resent
    · exact fitting.datagrams expands bytes sent
    · exact ih (fitting.step (next_stepped code run action allowed)) rest bytes resent

theorem run_mtu {display : D} {cols rows : Int32} {predictionOn : Bool} {family : SocketFamily}
    {hopIntervalMs : Nat} {trace : List RunAction}
    (reached : (runMachine code (start code display cols rows predictionOn family hopIntervalMs)).Run trace run) :
    let machine := runMachine code (start code display cols rows predictionOn family hopIntervalMs)
    run.mtu = if machine.emitted (refused code) machine.init trace = [] then mtuFor family else defaultSendMtu := by
  intro machine
  refine reached.invariant (motive := fun trace run => run.mtu =
    if machine.emitted (refused code) machine.init trace = [] then mtuFor family else defaultSendMtu) rfl ?_
  intro trace run action before same allowed
  have before : machine.Run trace run := before
  rw [before.emitted_snoc action]
  refine (next_stepped code run action allowed).mtu.trans ?_
  rw [same]
  cases run.refused code action with
  | nil => simp
  | cons bytes rest => simp

/-- The MTU is the family's until the socket turns a datagram down, then 500 for good, and from each turn of
    the loop on no datagram is longer than the MTU was at it. -/
theorem datagrams_within_mtu (code : LoopCode F)
    (expands : ∀ nonce packet ct, code.encrypt nonce packet = some ct → ct.length = packet.length + tagLen)
    (display : D) (cols rows : Int32) (predictionOn : Bool) (family : SocketFamily) (hopIntervalMs : Nat)
    (trace : List RunAction) (run : RunLoop D F)
    (reached : (runMachine code (start code display cols rows predictionOn family hopIntervalMs)).Run trace run) :
    let machine := runMachine code (start code display cols rows predictionOn family hopIntervalMs)
    (run.mtu = if machine.emitted (refused code) machine.init trace = [] then mtuFor family else 500) ∧
      (run.phase = .waking → ∀ later, machine.Follows run later →
        ∀ bytes ∈ machine.emitted (datagrams code) run later, bytes.length ≤ run.mtu) := by
  intro machine
  have mtu := run_mtu reached
  refine ⟨mtu, ?_⟩
  intro waking later follows
  have least : defaultSendMtu ≤ run.mtu := by
    rw [mtu]
    split
    · exact defaultSendMtu_le_mtuFor family
    · exact Nat.le_refl _
  refine follows_fit _ expands ⟨least, Nat.le_refl _, ?_⟩ follows
  rw [waking]
  exact fun frag member => absurd member List.not_mem_nil

/-- A first ack that the path turns down, and the next one after it. -/
def narrowActions : List RunAction :=
  [.wake 10001, .drained, .send 10001 10001 true, .settle false, .nothing]

def narrowRun : RunLoop PlainScreen Nat := narrowActions.foldl (runMachine sampleCode sampleStart).next sampleStart

theorem narrowRun_run : (runMachine sampleCode sampleStart).Run narrowActions narrowRun :=
  Machine.Run.start.follow (by decide +kernel)

theorem datagrams_within_mtu_narrow :
    let machine := runMachine sampleCode sampleStart
    let later := [.wake 20000, .drained, .send 20000 20000 false]
    narrowRun.mtu = 500 ∧ (machine.emitted (datagrams sampleCode) narrowRun later).length = 1 ∧
      ∀ bytes ∈ machine.emitted (datagrams sampleCode) narrowRun later, bytes.length ≤ narrowRun.mtu := by
  have expands : ∀ nonce packet ct, sampleCode.encrypt nonce packet = some ct →
      ct.length = packet.length + tagLen := by
    intro nonce packet ct sealed
    cases sealed
    exact sampleEncrypt_exact.expands nonce packet
  exact ⟨by decide +kernel, by decide +kernel, (datagrams_within_mtu sampleCode expands
    (MoshDisplay.newBlank 80 24) 80 24 true .v4 10000 narrowActions narrowRun narrowRun_run).2 (by decide +kernel)
      _ (by decide +kernel)⟩

end RunLoop

end MoshModel
