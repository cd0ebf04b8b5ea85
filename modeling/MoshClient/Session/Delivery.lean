import MoshClient.Session.EndToEnd
import MoshClient.Session.Acknowledged

namespace MoshModel

open Transition

namespace SspReceiver

variable {S : Type}

theorem processInstruction_ne_error (applyString : S → Bytes → Except WireError S) (receiver : SspReceiver S)
    (inst : TransportInstruction) (now : Nat) (version : inst.protocolVersion = moshProtocolVersion)
    (applies : ∀ s ∈ receiver.received, s.num = inst.oldNum → ∃ state,
      (if inst.diff = [] then .ok s.state else applyString s.state inst.diff) = .ok state) (error : SspError) :
    (receiver.processInstruction applyString inst now).1 ≠ .error error := by
  unfold processInstruction
  rw [if_neg (not_not.mpr version)]
  by_cases known : receiver.holds inst.newNum = true
  · rw [if_pos known]
    exact fun same => by cases same
  · rw [if_neg known]
    by_cases unknown : (!receiver.holds inst.oldNum) = true
    · rw [if_pos unknown]
      exact fun same => by cases same
    · rw [if_neg unknown]
      have spec := receiver.processThrowawayUntil_spec inst.throwawayNum
      generalize receiver.processThrowawayUntil inst.throwawayNum = thrown at *
      obtain ⟨taken, culled⟩ := thrown
      cases taken with
      | false => exact fun same => by cases same
      | true =>
        dsimp only
        cases found : culled.received.find? fun s => s.num = inst.oldNum with
        | none => exact fun same => by cases same
        | some reference =>
          have named : reference.num = inst.oldNum := by simpa using List.find?_some found
          have held : reference ∈ receiver.received := by
            obtain ⟨-, queue⟩ | ⟨refused, -⟩ := spec
            · have member := List.mem_of_find?_eq_some found
              rw [queue, mem_kept] at member
              exact member.1
            · cases refused
          obtain ⟨state, applied⟩ := applies reference held named
          dsimp only
          split
          · exact fun same => by cases same
          · have same : (if (!inst.diff.isEmpty) = true then applyString reference.state inst.diff
                else .ok reference.state) = (.ok state : Except WireError S) := by
              rw [← applied]
              cases inst.diff <;> rfl
            rw [same]
            exact fun same => by cases same

end SspReceiver

theorem TwoParty.Agreed.accepts {zlib : Zlib} {system : TwoParty} (agreed : system.Agreed zlib)
    {inst : TransportInstruction} (emitted : system.Emitted inst) (now : Nat) (error : SspError) :
    (system.receiver.processInstruction UserStream.applyString inst now).1 ≠ .error error := by
  obtain ⟨sending, sent, rfl, -⟩ := emitted
  obtain ⟨_, _, chronicle, -⟩ := agreed.sound.traced
  have faithful := agreed.sound.faithful sending sent
  apply SspReceiver.processInstruction_ne_error _ _ _ _ faithful.version
  intro s member named
  have origin := agreed.held s member
  rw [named] at origin
  obtain ⟨new, -, applied⟩ := faithful.apply chronicle.functional origin
  exact ⟨⟨new⟩, applied⟩

def Peer.completes {F : Type} (code : WireCode F) (peer : Peer) (bytes : Bytes) : Option TransportInstruction := do
  let opened ← (peer.opener.openDatagram code.decrypt bytes).toOption
  let fragment ← (Fragment.parse opened.2.2).toOption
  (peer.assembly.addFragment code.zlib fragment).1

theorem Peer.receive_said {F : Type} (code : WireCode F) (peer : Peer) (bytes : Bytes) (now : Nat) :
    (peer.receive code bytes now).said = peer.said := by
  unfold Peer.receive
  split
  · rfl
  · split
    · rfl
    · split <;> rfl

theorem sampleCode_aead : SoundAead sampleCode.encrypt sampleCode.decrypt := sampleEncrypt_exact.sound

namespace Exchange

variable {D F : Type} [MoshDisplay D] {code : LoopCode F} {display : D} {cols rows : Int32} {predictionOn : Bool}
  {family : SocketFamily} {hopIntervalMs peerNow : Nat} {trace : List ExchangeAction} {exchange : Exchange D F}

omit [MoshDisplay D] in
theorem Refines.completes {first : List UserEvent} {system : TwoParty} (faithful : code.zlib.Faithful)
    (refines : exchange.Refines code first trace system) (agreed : system.Agreed code.zlib) {bytes : Bytes}
    (authentic : Authentic code.decrypt exchange.peer.opener exchange.outbound bytes) {inst : TransportInstruction}
    (completes : exchange.peer.completes code.toWireCode bytes = some inst) : system.Emitted inst := by
  unfold Peer.completes at completes
  cases opened : exchange.peer.opener.openDatagram code.decrypt bytes with
  | error e => simp [opened, Except.toOption] at completes
  | ok datagram =>
    obtain ⟨seq, header, payload⟩ := datagram
    cases parsed : Fragment.parse payload with
    | error e => simp [opened, Except.toOption, parsed] at completes
    | ok frag =>
      simp only [opened, Except.toOption, Option.bind_eq_bind, Option.bind_some, parsed] at completes
      obtain ⟨sending, sent, piece, same⟩ := refines.gathers.returned faithful agreed.sound.sent
        (sound_steady agreed.sound) (authentic.cut refines.outbound opened parsed) _ completes
      exact ⟨sending, sent, same, List.ne_nil_of_mem piece⟩

theorem run_learned (aead : SoundAead code.encrypt code.decrypt) (faithful : code.zlib.Faithful)
    (run : (exchangeMachine code (start code display cols rows predictionOn family hopIntervalMs peerNow)).Run trace
      exchange) :
    ∀ s ∈ exchange.client.wired.loop.receiver.received,
      s.num ∈ 0 :: exchange.peer.said.map fun sending => sending.call.inst.newNum := by
  refine run.invariant (motive := fun _ (exchange : Exchange D F) =>
    ∀ s ∈ exchange.client.wired.loop.receiver.received,
      s.num ∈ 0 :: exchange.peer.said.map fun sending => sending.call.inst.newNum) ?_ ?_
  · intro s member
    rw [List.mem_singleton.mp member]
    exact List.mem_cons_self ..
  · intro trace exchange action before learned allowed s member
    obtain ⟨_, _, -, -, speaks⟩ := run_refines aead faithful before
    cases action with
    | client action =>
      rcases (RunLoop.next_stepped code exchange.client action allowed.1).learned s member with
        old | ⟨inst, takes, named⟩
      · exact learned s old
      · obtain ⟨sending, said, rfl⟩ := speaks.takes faithful allowed.2.2 takes
        rw [named]
        exact List.mem_cons_of_mem _ (List.mem_map.mpr ⟨sending, said, rfl⟩)
    | arrive bytes now =>
      dsimp only [exchangeMachine, next] at member ⊢
      rw [Peer.receive_said]
      exact learned s member
    | say inst mtu header =>
      dsimp only [exchangeMachine, next, Peer.say] at member ⊢
      rw [List.map_append, ← List.cons_append]
      exact List.mem_append_left _ (learned s member)
    | echo header => exact learned s member

theorem client_acked
    (run : (exchangeMachine code (start code display cols rows predictionOn family hopIntervalMs peerNow)).Run trace
      exchange) : exchange.client.wired.loop.Acked := by
  have ran := client_run run
  refine ran.invariant (motive := fun _ (run : RunLoop D F) => run.wired.loop.Acked) ?_ ?_
  · exact rfl
  · exact fun trace run action _ acked allowed => (RunLoop.next_stepped code run action allowed).acked acked

theorem typed_prefix (aead : SoundAead code.encrypt code.decrypt) (faithful : code.zlib.Faithful)
    (run : (exchangeMachine code (start code display cols rows predictionOn family hopIntervalMs peerNow)).Run trace
      exchange) :
    ∀ s ∈ exchange.peer.receiver.received,
      s.state.events <+: .resize cols rows :: typedInput (clientTrace trace) := by
  obtain ⟨labels, system, above, refines, speaks⟩ := run_refines aead faithful run
  have agreed := TwoParty.reachable_agreed ⟨labels, above⟩
  obtain ⟨_, _, chronicle, -⟩ := agreed.sound.traced
  intro s member
  rw [← refines.receiver] at member
  have held := chronicle.prefixes _ (agreed.held s member)
  rw [refines.drives.pushed] at held
  exact held

theorem acknowledged_held (aead : SoundAead code.encrypt code.decrypt) (faithful : code.zlib.Faithful)
    (run : (exchangeMachine code (start code display cols rows predictionOn family hopIntervalMs peerNow)).Run trace
      exchange) :
    ∃ s ∈ exchange.peer.receiver.received, s.num = exchange.client.wired.loop.shared.userAcked := by
  obtain ⟨labels, system, above, refines, speaks⟩ := run_refines aead faithful run
  have agreed := TwoParty.reachable_agreed ⟨labels, above⟩
  have held := agreed.fallback _ agreed.front (UInt64.le_refl _)
  rw [refines.drives.sender, ← client_acked run] at held
  rw [← refines.receiver]
  exact (SspReceiver.holds_iff _ _).mp held

theorem completed_accepted (aead : SoundAead code.encrypt code.decrypt) (faithful : code.zlib.Faithful)
    (run : (exchangeMachine code (start code display cols rows predictionOn family hopIntervalMs peerNow)).Run trace
      exchange) {bytes : Bytes} (authentic : Authentic code.decrypt exchange.peer.opener exchange.outbound bytes) :
    ∀ inst ∈ exchange.peer.completes code.toWireCode bytes, ∀ now error,
      (exchange.peer.receiver.processInstruction UserStream.applyString inst now).1 ≠ .error error := by
  obtain ⟨labels, system, above, refines, speaks⟩ := run_refines aead faithful run
  have agreed := TwoParty.reachable_agreed ⟨labels, above⟩
  intro inst completes now error
  rw [← refines.receiver]
  exact agreed.accepts (refines.completes faithful agreed authentic completes) now error

theorem end_cause
    (run : (exchangeMachine code (start code display cols rows predictionOn family hopIntervalMs peerNow)).Run trace
      exchange) {clean : Bool} {error : Option String}
    (ended : .ended clean error ∈ exchange.client.wired.loop.events) : RunLoop.Cause exchange.client clean error := by
  obtain ⟨shown, ending, shows, standing⟩ := (RunLoop.run_told (client_run run)).standing
  rw [shows.events] at ended
  have last : .ended clean error ∈ ending := by
    rcases List.mem_append.mp ended with screen | last
    · obtain ⟨num, -, same⟩ := List.mem_map.mp screen
      cases same
    · exact last
  rcases standing with ⟨rfl, -⟩ | ⟨_, _, rfl, -, -, cause⟩
  · exact absurd last List.not_mem_nil
  · cases List.mem_singleton.mp last
    exact cause

/-- A session that ends cleanly, other than on the peer's own quit, has seen its own shutdown acknowledged. -/
theorem clean_end_acknowledged (aead : SoundAead code.encrypt code.decrypt) (faithful : code.zlib.Faithful)
    (run : (exchangeMachine code (start code display cols rows predictionOn family hopIntervalMs peerNow)).Run trace
      exchange)
    (clean : .ended true none ∈ exchange.client.wired.loop.events)
    (staying : ∀ sending ∈ exchange.peer.said, sending.call.inst.newNum ≠ shutdownNum) :
    exchange.client.wired.loop.sender.shutdownInProgress = true ∧
      exchange.client.wired.loop.sender.shutdownAcknowledged = true := by
  have cause := end_cause run clean
  cases cause with
  | quit received framed =>
    have learned := run_learned aead faithful run _ (SspReceiver.latest_mem _)
    rw [received] at learned
    rcases List.mem_cons.mp learned with zero | said
    · cases zero
    · obtain ⟨sending, member, named⟩ := List.mem_map.mp said
      exact absurd named (staying sending member)
  | acknowledged started acknowledged => exact ⟨started, acknowledged⟩

theorem shutdown_holds (aead : SoundAead code.encrypt code.decrypt) (faithful : code.zlib.Faithful)
    (run : (exchangeMachine code (start code display cols rows predictionOn family hopIntervalMs peerNow)).Run trace
      exchange) (acknowledged : exchange.client.wired.loop.sender.shutdownAcknowledged = true) :
    ∃ s ∈ exchange.peer.receiver.received, s.num = shutdownNum ∧
      s.state.events = .resize cols rows :: typedInput (clientTrace trace) := by
  obtain ⟨labels, system, above, refines, speaks⟩ := run_refines aead faithful run
  have agreed := TwoParty.reachable_agreed ⟨labels, above⟩
  obtain ⟨_, _, chronicle, -⟩ := agreed.sound.traced
  have front : system.config.sender.queue.front.num = shutdownNum := by
    rw [refines.drives.sender]
    exact of_decide_eq_true acknowledged
  have held := agreed.fallback _ agreed.front (UInt64.le_refl _)
  rw [front] at held
  obtain ⟨s, member, named⟩ := (SspReceiver.holds_iff system.receiver shutdownNum).mp held
  obtain ⟨-, all⟩ := chronicle.final _ (agreed.held s member) named
  rw [← refines.receiver]
  refine ⟨s, member, named, ?_⟩
  rw [show s.state.events = system.config.pushed from all, refines.drives.pushed]
  rfl

theorem shutdown_asked (aead : SoundAead code.encrypt code.decrypt) (faithful : code.zlib.Faithful)
    (run : (exchangeMachine code (start code display cols rows predictionOn family hopIntervalMs peerNow)).Run trace
      exchange) :
    exchange.client.wired.loop.sender.shutdownInProgress =
      (clientTrace trace).any RunAction.asksShutdown := by
  obtain ⟨labels, system, above, refines, speaks⟩ := run_refines aead faithful run
  exact refines.drives.shutdown

end Exchange

end MoshModel
