import MoshClient.Session.PathMtu
import MoshClient.Session.AnyNetwork

namespace MoshModel

open Transition

theorem MoshSealer.sealDatagram_numbers (encrypt : Aead) (sealer : MoshSealer) (header : PacketHeader)
    (payload : Bytes) :
    sealer.nextSeq ≤ (sealer.sealDatagram encrypt header payload).2.nextSeq ∧
      ∀ datagram, (sealer.sealDatagram encrypt header payload).1 = .ok datagram →
        (Nonce.fromWireSuffix datagram).direction = sealer.direction ∧
          (Nonce.fromWireSuffix datagram).seq = sealer.nextSeq ∧
          sealer.nextSeq < (sealer.sealDatagram encrypt header payload).2.nextSeq := by
  obtain ⟨-, -, outcomes⟩ := sealer.sealDatagram_cases encrypt header payload
  generalize sealer.sealDatagram encrypt header payload = outcome at *
  rcases outcomes with ⟨refused, kept, -⟩ | ⟨refused, kept, -⟩ | ⟨-, left, next, result⟩
  · rw [refused, kept]
    exact ⟨UInt64.le_refl _, fun datagram sent => by cases sent⟩
  · rw [refused, kept]
    exact ⟨UInt64.le_refl _, fun datagram sent => by cases sent⟩
  · have rises : sealer.nextSeq < sealer.nextSeq + 1 := by
      have small := Nonce.toNat_lt_of_le_seqMask left
      rw [UInt64.lt_iff_toNat_lt, UInt64.toNat_add, Nat.mod_eq_of_lt (by simp only [UInt64.toNat_one]; omega)]
      exact Nat.lt_succ_self _
    rw [next]
    refine ⟨UInt64.le_of_lt rises, ?_⟩
    intro datagram sent
    rcases result with failed | ⟨ctAndTag, ok, -⟩
    · rw [failed] at sent
      cases sent
    · rw [ok] at sent
      cases sent
      rw [Nonce.fromWireSuffix_wireSuffix, Nonce.new_direction _ left, Nonce.new_seq _ left]
      exact ⟨rfl, rfl, rises⟩

namespace WiredLoop

variable {D F : Type}

theorem sendFragment_numbers (code : WireCode F) (wired : WiredLoop D F) (fragment : Fragment) (now stamped : Nat) :
    wired.sealer.nextSeq ≤ (wired.sendFragment code fragment now stamped).2.sealer.nextSeq ∧
      ∀ datagram ∈ (wired.sendFragment code fragment now stamped).1.toList,
        (Nonce.fromWireSuffix datagram).direction = wired.sealer.direction ∧
          (Nonce.fromWireSuffix datagram).seq = wired.sealer.nextSeq ∧
          wired.sealer.nextSeq < (wired.sendFragment code fragment now stamped).2.sealer.nextSeq := by
  unfold sendFragment
  dsimp only
  generalize PacketHeader.mk (timestamp16 stamped) ((wired.timing.reply now).1.getD noTimestamp) = header
  obtain ⟨forward, numbered⟩ := wired.sealer.sealDatagram_numbers code.encrypt header fragment.tostring
  generalize wired.sealer.sealDatagram code.encrypt header fragment.tostring = sealed at *
  obtain ⟨result, sealer⟩ := sealed
  cases result with
  | error e => exact ⟨forward, fun datagram member => absurd member List.not_mem_nil⟩
  | ok datagram =>
    refine ⟨forward, fun other member => ?_⟩
    rw [List.mem_singleton.mp member]
    exact numbered datagram rfl

variable [MoshDisplay D]

theorem datagram_sealer (code : WireCode F) (wired : WiredLoop D F) (bytes : Bytes) (addresses : Nat → Address)
    (now sampled : Nat) : (wired.next code (.datagram bytes addresses now sampled)).sealer = wired.sealer := by
  unfold next handleDatagram
  dsimp only
  split
  · rfl
  · split
    · rfl
    · split <;> rfl

end WiredLoop

namespace RunLoop

variable {D F : Type}

/-- The datagrams sent so far bear distinct numbers in the direction of the server, none of them ahead of the
    sealer's. -/
structure Numbered (sent : List Bytes) (run : RunLoop D F) : Prop where
  direction : run.wired.sealer.direction = .toServer
  own : ∀ bytes ∈ sent, (Nonce.fromWireSuffix bytes).direction = .toServer
  spent : ∀ bytes ∈ sent, (Nonce.fromWireSuffix bytes).seq < run.wired.sealer.nextSeq
  ascending : sent.Pairwise fun earlier later =>
    (Nonce.fromWireSuffix earlier).seq < (Nonce.fromWireSuffix later).seq

variable [MoshDisplay D] {code : LoopCode F} {run after : RunLoop D F} {action : RunAction} {sent : List Bytes}

theorem Numbered.step (numbered : Numbered sent run) (stepped : Stepped code run action after) :
    Numbered (sent ++ run.datagrams code action) after := by
  have silent : ∀ {other : RunLoop D F}, other.wired.sealer = run.wired.sealer → run.datagrams code action = [] →
      Numbered (sent ++ run.datagrams code action) other := by
    intro other same none
    rw [none, List.append_nil]
    refine ⟨?_, numbered.own, ?_, numbered.ascending⟩
    · rw [same]
      exact numbered.direction
    · rw [same]
      exact numbered.spent
  cases stepped with
  | woke _ _ | terminated _ | commanded _ _ | failed _ _ | ticked _ _ _ | passed _ | called _ => exact silent rfl rfl
  | @received wait older drained now sampled bytes addresses _ _ _ =>
    exact silent (run.wired.datagram_sealer code.toWireCode bytes addresses now sampled) rfl
  | @quit now bound _ _ | @shutDown now bound _ _ _ =>
    have kept := congrArg WiredLoop.sealer (run.settled_frame now bound).1
    exact silent kept rfl
  | @waited now wait bound _ _ _ _ _ => exact silent rfl rfl
  | @sent top now stamped mtu oversize fragment out sending _ _ _ =>
    have direction := run.wired.next_direction code.toWireCode (.send fragment now stamped)
    obtain ⟨forward, fresh⟩ := run.wired.sendFragment_numbers code.toWireCode fragment now stamped
    rw [datagrams_send code sending now stamped oversize]
    have sealed : run.wired.next code.toWireCode (.send fragment now stamped) =
        (run.wired.sendFragment code.toWireCode fragment now stamped).2 := rfl
    generalize run.wired.next code.toWireCode (.send fragment now stamped) = wired at direction sealed ⊢
    rw [← sealed] at forward fresh
    generalize run.wired.sendFragment code.toWireCode fragment now stamped = outcome at fresh ⊢
    refine ⟨direction.trans numbered.direction, ?_, ?_, ?_⟩
    · intro bytes member
      rcases List.mem_append.mp member with old | new
      · exact numbered.own bytes old
      · rw [(fresh bytes new).1]
        exact numbered.direction
    · intro bytes member
      rcases List.mem_append.mp member with old | new
      · exact UInt64.lt_of_lt_of_le (numbered.spent bytes old) forward
      · rw [(fresh bytes new).2.1]
        exact (fresh bytes new).2.2
    · rw [List.pairwise_append]
      refine ⟨numbered.ascending, ?_, ?_⟩
      · cases outcome.1 with
        | none => exact .nil
        | some datagram => exact List.pairwise_singleton _ _
      · intro earlier old later new
        rw [(fresh later new).2.1]
        exact numbered.spent earlier old

/-- No two datagrams of a session bear the same nonce, whatever the embedder and the network do: their numbers
    ascend, all in the direction of the server. -/
theorem nonces_ascend (code : LoopCode F) (display : D) (cols rows : Int32) (predictionOn : Bool)
    (family : SocketFamily) (hopIntervalMs : Nat) (trace : List RunAction) (run : RunLoop D F)
    (reached : (runMachine code (start code display cols rows predictionOn family hopIntervalMs)).Run trace run) :
    let machine := runMachine code (start code display cols rows predictionOn family hopIntervalMs)
    let sent := machine.emitted (datagrams code) machine.init trace
    (∀ bytes ∈ sent, (Nonce.fromWireSuffix bytes).direction = .toServer) ∧
      sent.Pairwise fun earlier later => (Nonce.fromWireSuffix earlier).seq < (Nonce.fromWireSuffix later).seq := by
  intro machine sent
  have numbered : Numbered (machine.emitted (datagrams code) machine.init trace) run := by
    refine reached.invariant (motive := fun trace run =>
      Numbered (machine.emitted (datagrams code) machine.init trace) run) ?_ ?_
    · exact ⟨rfl, fun bytes member => absurd member List.not_mem_nil, fun bytes member => absurd member List.not_mem_nil,
        .nil⟩
    · intro trace run action before numbered allowed
      have before : machine.Run trace run := before
      rw [before.emitted_snoc action]
      exact numbered.step (next_stepped code run action allowed)
  exact ⟨numbered.own, numbered.ascending⟩

theorem nonces_ascend_resent :
    let machine := runMachine sampleCode sampleStart
    let sent := machine.emitted (datagrams sampleCode) machine.init resentActions
    sent.map (fun bytes => (Nonce.fromWireSuffix bytes).seq) = [0, 1] ∧
      (∀ bytes ∈ sent, (Nonce.fromWireSuffix bytes).direction = .toServer) ∧
      sent.Pairwise fun earlier later => (Nonce.fromWireSuffix earlier).seq < (Nonce.fromWireSuffix later).seq :=
  ⟨by decide +kernel, nonces_ascend sampleCode (MoshDisplay.newBlank 80 24) 80 24 true .v4 10000 resentActions resentRun
    resentRun_run.unguard⟩

end RunLoop

end MoshModel
