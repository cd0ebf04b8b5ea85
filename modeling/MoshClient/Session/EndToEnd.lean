import MoshClient.Session.ExchangeSteps
import MoshClient.Library.Simulation

namespace MoshModel

open Transition Fragmenter

namespace RunLoop

variable {D F : Type} [MoshDisplay D]

/-- What the datagram of a step hands to the assembly. -/
def fed (code : LoopCode F) (run : RunLoop D F) : RunAction → Option Fragment
  | .receive bytes addresses now sampled =>
    WiredLoop.fragmentOf code.toWireCode run.wired.opener (.datagram bytes addresses now sampled)
  | _ => none

theorem Stepped.assembly {code : LoopCode F} {run after : RunLoop D F} {action : RunAction}
    (stepped : Stepped code run action after) :
    after.wired.assembly = run.wired.assembly.feed code.zlib (run.fed code action).toList ∧
      after.wired.sealer.direction = run.wired.sealer.direction := by
  have next := fun action : WireAction =>
    And.intro (run.wired.next_assembly code.toWireCode action) (run.wired.next_direction code.toWireCode action)
  cases stepped with
  | woke _ _ | terminated _ | failed _ _ | passed _ => exact ⟨rfl, rfl⟩
  | @commanded now command _ _ =>
    dsimp only
    exact next (.inner (.drain command now))
  | @ticked now out _ _ _ =>
    dsimp only
    exact next (.inner (.tick now (run.rto code) (run.sendInterval code) (fragmentMtu run.mtu)))
  | @sent top now stamped mtu oversize fragment out _ _ _ _ =>
    dsimp only
    exact next (.send fragment now stamped)
  | @quit now bound _ _ =>
    have wired := (run.settled_frame now bound).1
    have assembly := congrArg WiredLoop.assembly wired
    have direction := congrArg (fun wired : WiredLoop D F => wired.sealer.direction) wired
    exact ⟨assembly, direction⟩
  | @shutDown now bound _ _ _ =>
    have wired := (run.settled_frame now bound).1
    have assembly := congrArg WiredLoop.assembly wired
    have direction := congrArg (fun wired : WiredLoop D F => wired.sealer.direction) wired
    exact ⟨assembly, direction⟩
  | @waited now wait bound _ _ _ _ _ =>
    dsimp only
    exact next (.inner (.waitTime now (run.rto code) (run.sendInterval code)))
  | @received wait older drained now sampled bytes addresses _ _ _ =>
    dsimp only
    exact next (.datagram bytes addresses now sampled)
  | called call =>
    dsimp only
    exact next (.inner call.action)

omit [MoshDisplay D] in
theorem datagrams_unsent {code : LoopCode F} {run : RunLoop D F} {action : RunAction} {bytes : Bytes}
    (member : bytes ∈ run.datagrams code action) :
    ∃ fragment ∈ unsent run.phase, ∃ header,
      (run.wired.sealer.sealDatagram code.encrypt header fragment.tostring).1 = .ok bytes := by
  unfold datagrams at member
  split at member
  · rename_i now stamped oversize top fragment out sending
    refine ⟨fragment, ?_, ?_⟩
    · rw [sending]
      exact List.mem_cons_self ..
    · unfold WiredLoop.sendFragment at member
      dsimp only at member
      generalize PacketHeader.mk _ _ = header at member
      refine ⟨header, ?_⟩
      generalize run.wired.sealer.sealDatagram code.encrypt header fragment.tostring = sealed at member ⊢
      obtain ⟨result, sealer⟩ := sealed
      cases result with
      | error e => exact absurd member List.not_mem_nil
      | ok datagram => rw [← List.mem_singleton.mp member]
  · exact absurd member List.not_mem_nil

end RunLoop

namespace Exchange

variable {D F : Type}

/-- What the peer said, and where it stands on the network and in the client's reassembly. -/
structure Speaks (code : LoopCode F) (exchange : Exchange D F) : Prop where
  sent : sendAll code.zlib (exchange.peer.said.map Sending.call) = (exchange.peer.said, exchange.peer.fragmenter)
  steady : Steady (exchange.peer.said.map Sending.call)
  ids : exchange.peer.fragmenter.nextInstructionId < 2 ^ 64
  acks : ∀ sending ∈ exchange.peer.said, sending.call.inst.ackNum ∈ 0 :: exchange.peer.reported
  inbound : ∀ bytes ∈ exchange.inbound, Carries code.decrypt .toClient exchange.peer.said bytes
  gathers : exchange.client.wired.assembly.Gathers exchange.peer.said
  peerSeals : exchange.peer.sealer.direction = .toClient
  clientSeals : exchange.client.wired.sealer.direction = .toServer

/-- The exchange as the two parties of the protocol, with the network between them taken for instructions in
    flight. -/
structure Refines (code : LoopCode F) (first : List UserEvent) (trace : List ExchangeAction)
    (exchange : Exchange D F) (system : TwoParty) : Prop where
  drives : exchange.client.Drives first (clientTrace trace) system.config
  receiver : system.receiver = exchange.peer.receiver
  reported : system.reported = exchange.peer.reported
  outbound : ∀ bytes ∈ exchange.outbound, Carries code.decrypt .toServer system.config.sendings bytes
  gathers : exchange.peer.assembly.Gathers system.config.sendings

end Exchange

namespace TwoParty

theorem follows_sender {zlib : Zlib} {senderNow sendMindelay : Nat} (receiverNow : Nat) {system : TwoParty}
    {actions : List SenderAction} (follows : (senderMachine zlib senderNow sendMindelay).Follows system.config actions)
    (acks : ∀ action ∈ actions, ∀ ack ∈ action.acknowledged, ack ∈ 0 :: system.reported) :
    (twoPartyMachine zlib senderNow receiverNow sendMindelay).Follows system (actions.map .sender) ∧
      (actions.map TwoPartyAction.sender).foldl (next zlib) system =
        { system with config := actions.foldl (SenderConfig.next zlib) system.config } := by
  induction actions generalizing system with
  | nil => exact ⟨True.intro, rfl⟩
  | cons action actions ih =>
    obtain ⟨allowed, rest⟩ := follows
    obtain ⟨later, same⟩ := @ih { system with config := system.config.next zlib action } rest
      fun other member => acks other (List.mem_cons_of_mem _ member)
    exact ⟨⟨⟨allowed, acks action (List.mem_cons_self ..)⟩, later⟩, same⟩

end TwoParty

namespace Exchange

variable {D F : Type}

theorem clientTrace_snoc (trace : List ExchangeAction) (action : RunAction) :
    clientTrace (trace ++ [.client action]) = clientTrace trace ++ [action] := by
  unfold clientTrace
  rw [List.filterMap_append]
  rfl

theorem clientTrace_other (trace : List ExchangeAction) {action : ExchangeAction}
    (other : ∀ inner, action ≠ .client inner) : clientTrace (trace ++ [action]) = clientTrace trace := by
  unfold clientTrace
  rw [List.filterMap_append]
  cases action with
  | client inner => exact absurd rfl (other inner)
  | arrive _ _ | say _ _ _ | echo _ => exact List.append_nil _

variable [MoshDisplay D] {code : LoopCode F} {first : List UserEvent} {trace : List ExchangeAction}
  {exchange : Exchange D F} {system : TwoParty}

omit [MoshDisplay D] in
theorem Speaks.fed (speaks : exchange.Speaks code) {action : RunAction} {frag : Fragment} (admits : exchange.Admits code action)
    (fed : exchange.client.fed code action = some frag) : Cut exchange.peer.said frag := by
  unfold RunLoop.fed at fed
  cases action with
  | receive bytes addresses now sampled =>
    simp only [WiredLoop.fragmentOf] at fed
    cases opened : exchange.client.wired.opener.openDatagram code.decrypt bytes with
    | error e =>
      rw [opened] at fed
      cases fed
    | ok datagram =>
      obtain ⟨seq, header, payload⟩ := datagram
      rw [opened] at fed
      cases parsed : Fragment.parse payload with
      | error e => simp [Except.toOption, parsed] at fed
      | ok other =>
        simp only [Except.toOption, Option.bind_eq_bind, Option.bind_some, parsed, Option.some.injEq] at fed
        rw [← fed]
        exact admits.cut speaks.inbound opened parsed
  | _ => cases fed

theorem Speaks.client (speaks : exchange.Speaks code) {action : RunAction}
    (admits : exchange.Admits code action)
    (stepped : RunLoop.Stepped code exchange.client action (exchange.client.next code action)) :
    (exchange.next code (.client action)).Speaks code := by
  obtain ⟨assembly, direction⟩ := stepped.assembly
  refine ⟨speaks.sent, speaks.steady, speaks.ids, speaks.acks, speaks.inbound, ?_, speaks.peerSeals,
    direction.trans speaks.clientSeals⟩
  show FragmentAssembly.Gathers exchange.peer.said (exchange.client.next code action).wired.assembly
  rw [assembly]
  cases fed : exchange.client.fed code action with
  | none => exact speaks.gathers
  | some frag => exact speaks.gathers.add code.zlib (speaks.fed admits fed)

omit [MoshDisplay D] in
theorem Speaks.takes (speaks : exchange.Speaks code) (faithful : code.zlib.Faithful) {action : RunAction}
    {inst : TransportInstruction}
    (admits : exchange.Admits code action)
    (takes : exchange.client.Takes code action inst) : ∃ sending ∈ exchange.peer.said, sending.call.inst = inst := by
  obtain ⟨bytes, addresses, now, sampled, frag, rfl, carried, completed⟩ := takes
  have cut := speaks.fed admits carried
  obtain ⟨sending, said, -, same⟩ := speaks.gathers.returned faithful speaks.sent speaks.steady cut _ completed
  exact ⟨sending, said, same⟩

theorem Refines.client (aead : SoundAead code.encrypt code.decrypt) (faithful : code.zlib.Faithful) {peerNow : Nat}
    (refines : exchange.Refines code first trace system) (speaks : exchange.Speaks code)
    (agreed : system.Agreed code.zlib) (ported : exchange.client.Ported) (linked : exchange.client.wired.loop.Linked)
    {action : RunAction} (allowed : exchange.allowed code (.client action)) :
    ∃ labels, (twoPartyMachine code.zlib 0 peerNow 1).Follows system labels ∧
      (exchange.next code (.client action)).Refines code first (trace ++ [.client action])
        (labels.foldl (TwoParty.next code.zlib) system) := by
  obtain ⟨able, roomy, admits⟩ := allowed
  have stepped := RunLoop.next_stepped code exchange.client action able
  obtain ⟨actions, follows, drives, acks⟩ := refines.drives.step ported linked roomy stepped
  have reported : ∀ sent ∈ actions, ∀ ack ∈ sent.acknowledged, ack ∈ 0 :: system.reported := by
    intro sent member ack acknowledged
    rw [refines.reported]
    obtain ⟨inst, takes, rfl⟩ := acks sent member ack acknowledged
    obtain ⟨sending, said, rfl⟩ := speaks.takes faithful admits takes
    exact speaks.acks sending said
  obtain ⟨allowed, next⟩ := TwoParty.follows_sender peerNow follows reported
  obtain ⟨later, sendings⟩ := system.config.foldl_sendings code.zlib actions
  refine ⟨actions.map .sender, allowed, ?_⟩
  rw [next]
  refine ⟨?_, refines.receiver, refines.reported, ?_, ?_⟩
  · rw [clientTrace_snoc]
    exact drives
  · intro bytes member
    dsimp only
    rw [sendings]
    rcases List.mem_append.mp member with old | new
    · exact (refines.outbound bytes old).more later
    · obtain ⟨frag, unsent, header, sent⟩ := RunLoop.datagrams_unsent new
      have cut := refines.drives.outgoing frag unsent
      have consistent := sendAll_consistent code.zlib _ (sound_steady agreed.sound)
      rw [agreed.sound.sent] at consistent
      have ids : system.config.fragmenter.nextInstructionId < 2 ^ 64 := by
        rw [refines.drives.fragmenter]
        exact refines.drives.ids
      have carries := Carries.of_sealed aead sent (cut_of_parse cut (consistent.onWire ids cut))
      rw [speaks.clientSeals] at carries
      exact carries.more later
  · dsimp only
    rw [sendings]
    exact refines.gathers.more later

omit [MoshDisplay D] in
theorem Refines.other (refines : exchange.Refines code first trace system) {action : ExchangeAction}
    {after : Exchange D F} {assembly : FragmentAssembly} (aside : ∀ inner, action ≠ .client inner)
    (client : after.client = exchange.client) (outbound : after.outbound = exchange.outbound)
    (receiver : after.peer.receiver = exchange.peer.receiver)
    (reported : after.peer.reported = exchange.peer.reported) (peer : after.peer.assembly = assembly)
    (gathers : assembly.Gathers system.config.sendings) :
    after.Refines code first (trace ++ [action]) system := by
  refine ⟨?_, refines.receiver.trans receiver.symm, refines.reported.trans reported.symm, ?_, ?_⟩
  · rw [client, clientTrace_other trace aside]
    exact refines.drives
  · rw [outbound]
    exact refines.outbound
  · rw [peer]
    exact gathers

/-- A datagram at the peer is nothing to the protocol, or the delivery of an instruction that was sent. -/
theorem Refines.arrive (faithful : code.zlib.Faithful) {peerNow : Nat}
    (refines : exchange.Refines code first trace system) (agreed : system.Agreed code.zlib) {bytes : Bytes} (now : Nat)
    (authentic : Authentic code.decrypt exchange.peer.opener exchange.outbound bytes) :
    ∃ labels, (twoPartyMachine code.zlib 0 peerNow 1).Follows system labels ∧
      (exchange.next code (.arrive bytes now)).Refines code first (trace ++ [.arrive bytes now])
        (labels.foldl (TwoParty.next code.zlib) system) := by
  have aside : ∀ inner, ExchangeAction.arrive bytes now ≠ .client inner := fun inner same => by cases same
  unfold next Peer.receive
  dsimp only
  cases opened : exchange.peer.opener.openDatagram code.decrypt bytes with
  | error e => exact ⟨[], True.intro, refines.other aside rfl rfl rfl rfl rfl refines.gathers⟩
  | ok datagram =>
    obtain ⟨seq, header, payload⟩ := datagram
    dsimp only
    cases parsed : Fragment.parse payload with
    | error e => exact ⟨[], True.intro, refines.other aside rfl rfl rfl rfl rfl refines.gathers⟩
    | ok frag =>
      have cut := authentic.cut refines.outbound opened parsed
      have gathers := refines.gathers.add code.zlib cut
      have returned := refines.gathers.returned faithful agreed.sound.sent (sound_steady agreed.sound) cut
      dsimp only
      cases added : exchange.peer.assembly.addFragment code.zlib frag with
      | mk whole assembly =>
        rw [added] at gathers returned
        cases whole with
        | none => exact ⟨[], True.intro, refines.other aside rfl rfl rfl rfl rfl gathers⟩
        | some inst =>
          obtain ⟨sending, sent, piece, rfl⟩ := returned inst rfl
          refine ⟨[.deliver sending.call.inst now], ⟨⟨sending, sent, rfl, List.ne_nil_of_mem piece⟩, True.intro⟩, ?_⟩
          rw [List.foldl_cons, List.foldl_nil]
          refine ⟨?_, ?_, ?_, refines.outbound, gathers⟩
          · rw [clientTrace_other trace aside]
            exact refines.drives
          · dsimp only [TwoParty.next]
            rw [refines.receiver]
          · dsimp only [TwoParty.next]
            rw [refines.receiver, refines.reported]

omit [MoshDisplay D] in
theorem Speaks.arrive (speaks : exchange.Speaks code) (bytes : Bytes) (now : Nat) :
    Speaks code { exchange with peer := exchange.peer.receive code.toWireCode bytes now } := by
  have kept : ∀ peer : Peer, peer.sealer = exchange.peer.sealer → peer.fragmenter = exchange.peer.fragmenter →
      peer.said = exchange.peer.said → (∃ later, peer.reported = exchange.peer.reported ++ later) →
        Speaks code { exchange with peer := peer } := by
    intro peer sealer fragmenter said reported
    obtain ⟨later, reported⟩ := reported
    refine ⟨?_, ?_, ?_, ?_, ?_, ?_, ?_, speaks.clientSeals⟩
    · rw [said, fragmenter]
      exact speaks.sent
    · rw [said]
      exact speaks.steady
    · rw [fragmenter]
      exact speaks.ids
    · rw [said, reported, ← List.cons_append]
      exact fun sending member => List.mem_append_left later (speaks.acks sending member)
    · rw [said]
      exact speaks.inbound
    · rw [said]
      exact speaks.gathers
    · rw [sealer]
      exact speaks.peerSeals
  unfold Peer.receive
  split
  · exact kept _ rfl rfl rfl ⟨[], (List.append_nil _).symm⟩
  · split
    · exact kept _ rfl rfl rfl ⟨[], (List.append_nil _).symm⟩
    · split
      · exact kept _ rfl rfl rfl ⟨[], (List.append_nil _).symm⟩
      · exact kept _ rfl rfl rfl ⟨_, rfl⟩

omit [MoshDisplay D] in
theorem Speaks.say (aead : SoundAead code.encrypt code.decrypt) (speaks : exchange.Speaks code)
    {inst : TransportInstruction} {mtu : Nat} (header : PacketHeader)
    (honest : inst.ackNum ∈ 0 :: exchange.peer.reported)
    (steady : Steady (exchange.peer.said.map Sending.call ++ [{ inst := inst, mtu := mtu }]))
    (ids : exchange.peer.fragmenter.nextInstructionId + 1 < 2 ^ 64) :
    let said := exchange.peer.say code.toWireCode inst mtu header
    Speaks code { exchange with peer := said.2, inbound := exchange.inbound ++ said.1 } := by
  have sent := sendAll_append code.zlib (exchange.peer.said.map Sending.call) { inst := inst, mtu := mtu }
  have named := send_call code.zlib exchange.peer.fragmenter { inst := inst, mtu := mtu }
  have bumped := exchange.peer.fragmenter.send_ids code.zlib { inst := inst, mtu := mtu }
  have consistent := sendAll_consistent code.zlib _ steady
  rw [sent, speaks.sent] at consistent
  rw [speaks.sent] at sent
  dsimp only [Peer.say]
  generalize exchange.peer.fragmenter.send code.zlib { inst := inst, mtu := mtu } = framed at *
  obtain ⟨sending, fragmenter⟩ := framed
  dsimp only at sent named bumped consistent ⊢
  have calls : (exchange.peer.said ++ [sending]).map Sending.call =
      exchange.peer.said.map Sending.call ++ [{ inst := inst, mtu := mtu }] := by
    rw [List.map_append, List.map_singleton, named]
  have cut : ∀ payload ∈ sending.fragments.map Fragment.tostring, ∀ frag, Fragment.parse payload = .ok frag →
      Cut (exchange.peer.said ++ [sending]) frag := by
    intro payload member
    obtain ⟨frag, piece, rfl⟩ := List.mem_map.mp member
    have mine : Cut (exchange.peer.said ++ [sending]) frag :=
      ⟨sending, List.mem_append_right _ (List.mem_singleton_self _), piece⟩
    exact cut_of_parse mine (consistent.onWire (Nat.lt_of_le_of_lt bumped ids) mine)
  obtain ⟨carries, direction⟩ := Peer.sealAll_carries aead header exchange.peer.sealer _ cut
  rw [speaks.peerSeals] at carries direction
  refine ⟨?_, ?_, Nat.lt_of_le_of_lt bumped ids, ?_, ?_, speaks.gathers.more _, direction, speaks.clientSeals⟩
  · dsimp only
    rw [calls, sent]
  · dsimp only
    rw [calls]
    exact steady
  · intro other member
    rcases List.mem_append.mp member with old | new
    · exact speaks.acks other old
    · rw [List.mem_singleton.mp new, named]
      exact honest
  · intro bytes member
    rcases List.mem_append.mp member with old | new
    · exact (speaks.inbound bytes old).more _
    · exact carries bytes new

omit [MoshDisplay D] in
theorem Speaks.echo (aead : SoundAead code.encrypt code.decrypt) (speaks : exchange.Speaks code)
    (header : PacketHeader) :
    let said := exchange.peer.echo code.toWireCode header
    Speaks code { exchange with peer := said.2, inbound := exchange.inbound ++ said.1 } := by
  have cut : ∀ payload ∈ [([] : Bytes)], ∀ frag, Fragment.parse payload = .ok frag →
      Cut exchange.peer.said frag := by
    intro payload member frag parsed
    rw [List.mem_singleton.mp member] at parsed
    cases parsed
  obtain ⟨carries, direction⟩ := Peer.sealAll_carries aead header exchange.peer.sealer _ cut
  rw [speaks.peerSeals] at carries direction
  refine ⟨speaks.sent, speaks.steady, speaks.ids, speaks.acks, ?_, speaks.gathers, direction, speaks.clientSeals⟩
  intro bytes member
  rcases List.mem_append.mp member with old | new
  · exact speaks.inbound bytes old
  · exact carries bytes new

variable {display : D} {cols rows : Int32} {predictionOn : Bool} {family : SocketFamily} {hopIntervalMs peerNow : Nat}

omit [MoshDisplay D] in
theorem start_refines (code : LoopCode F) (display : D) (cols rows : Int32) (predictionOn : Bool)
    (family : SocketFamily) (hopIntervalMs peerNow : Nat) :
    (twoPartyMachine code.zlib 0 peerNow 1).Run [.sender (.pushResize cols rows)]
        ((TwoParty.start 0 peerNow 1).next code.zlib (.sender (.pushResize cols rows))) ∧
      (start code display cols rows predictionOn family hopIntervalMs peerNow).Refines code [.resize cols rows] []
        ((TwoParty.start 0 peerNow 1).next code.zlib (.sender (.pushResize cols rows))) ∧
      (start code display cols rows predictionOn family hopIntervalMs peerNow).Speaks code := by
  refine ⟨Machine.Run.start.step ⟨⟨rfl, (by decide : 0 + 1 ≤ isizeMax)⟩, fun ack member => by cases member⟩, ?_, ?_⟩
  · refine ⟨⟨rfl, rfl, Nat.le_refl _, rfl, rfl, ?_, ?_⟩, rfl, rfl, ?_, FragmentAssembly.Gathers.start⟩
    · exact fun frag member => absurd member List.not_mem_nil
    · exact Nat.two_pow_pos 64
    · exact fun bytes member => absurd member List.not_mem_nil
  · refine ⟨rfl, .nil, Nat.two_pow_pos 64, ?_, ?_, FragmentAssembly.Gathers.start, rfl, rfl⟩
    · exact fun sending member => absurd member List.not_mem_nil
    · exact fun bytes member => absurd member List.not_mem_nil

/-- Every run of an exchange over a network that makes nothing up is a run of the two parties. -/
theorem run_refines (aead : SoundAead code.encrypt code.decrypt) (faithful : code.zlib.Faithful)
    (run : (exchangeMachine code (start code display cols rows predictionOn family hopIntervalMs peerNow)).Run trace
      exchange) :
    ∃ labels system, (twoPartyMachine code.zlib 0 peerNow 1).Run labels system ∧
      exchange.Refines code [.resize cols rows] trace system ∧ exchange.Speaks code := by
  obtain ⟨started, refines, speaks⟩ :=
    start_refines code display cols rows predictionOn family hopIntervalMs peerNow
  refine started.simulate (fun trace exchange _ system =>
    exchange.Refines code [.resize cols rows] trace system ∧ exchange.Speaks code) ⟨refines, speaks⟩ ?_ run
  intro trace exchange labels system action before above held allowed
  obtain ⟨refines, speaks⟩ := held
  have agreed := TwoParty.reachable_agreed ⟨labels, above⟩
  have idle : ∀ (after : Exchange D F), after.Refines code [.resize cols rows] (trace ++ [action]) system ∧
      after.Speaks code → ∃ more, (twoPartyMachine code.zlib 0 peerNow 1).Follows system more ∧
        after.Refines code [.resize cols rows] (trace ++ [action]) (more.foldl (TwoParty.next code.zlib) system) ∧
        after.Speaks code := fun after kept => ⟨[], True.intro, kept⟩
  cases action with
  | client action =>
    have ran := client_run before
    obtain ⟨_, _, shows, -⟩ := (RunLoop.run_told ran).standing
    obtain ⟨more, follows, after⟩ := refines.client aead faithful speaks agreed
      (RunLoop.reachable_ported ⟨_, ran⟩).1 shows.linked allowed
    exact ⟨more, follows, after, speaks.client allowed.2.2 (RunLoop.next_stepped code exchange.client action allowed.1)⟩
  | arrive bytes now =>
    obtain ⟨more, follows, after⟩ := refines.arrive faithful agreed now allowed
    exact ⟨more, follows, after, speaks.arrive bytes now⟩
  | say inst mtu header =>
    refine idle _ ⟨refines.other (fun inner same => by cases same) rfl rfl rfl rfl rfl refines.gathers, ?_⟩
    exact speaks.say aead header allowed.1 allowed.2.1 allowed.2.2
  | echo header =>
    refine idle _ ⟨refines.other (fun inner same => by cases same) rfl rfl rfl rfl rfl refines.gathers, ?_⟩
    exact speaks.echo aead header

end Exchange

end MoshModel
