import MoshClient.Session.DrivenSender
import MoshClient.Crypto.Honest

namespace MoshModel

open Transition

/-- The other end of a session: a receiver of the user's stream behind the same layers with the directions
    swapped, the numbers it reported as latest, and the instructions it framed itself. -/
structure Peer where
  opener : MoshOpener
  sealer : MoshSealer
  assembly : FragmentAssembly
  receiver : SspReceiver UserStream
  reported : List UInt64
  fragmenter : Fragmenter
  said : List Sending

namespace Peer

def start (now : Nat) : Peer :=
  { opener := { peerDirection := .toServer }
    sealer := MoshSealer.new .toClient
    assembly := FragmentAssembly.new
    receiver := SspReceiver.new UserStream.new now
    reported := []
    fragmenter := Fragmenter.default
    said := [] }

variable {F : Type}

def receive (code : WireCode F) (peer : Peer) (bytes : Bytes) (now : Nat) : Peer :=
  match peer.opener.openDatagram code.decrypt bytes with
  | .error _ => peer
  | .ok (_, _, payload) =>
    match Fragment.parse payload with
    | .error _ => peer
    | .ok fragment =>
      match peer.assembly.addFragment code.zlib fragment with
      | (none, assembly) => { peer with assembly := assembly }
      | (some inst, assembly) =>
        let outcome := peer.receiver.processInstruction UserStream.applyString inst now
        { peer with
          assembly := assembly
          receiver := outcome.2
          reported := peer.reported ++ (latestNum outcome.1).toList }

def sealAll (encrypt : Aead) (header : PacketHeader) : MoshSealer → List Bytes → List Bytes × MoshSealer
  | sealer, [] => ([], sealer)
  | sealer, payload :: payloads =>
    let first := sealer.sealDatagram encrypt header payload
    let rest := sealAll encrypt header first.2 payloads
    (first.1.toOption.toList ++ rest.1, rest.2)

def say (code : WireCode F) (peer : Peer) (inst : TransportInstruction) (mtu : Nat) (header : PacketHeader) :
    List Bytes × Peer :=
  let framed := peer.fragmenter.send code.zlib { inst := inst, mtu := mtu }
  let sealed := sealAll code.encrypt header peer.sealer (framed.1.fragments.map Fragment.tostring)
  (sealed.1, { peer with sealer := sealed.2, fragmenter := framed.2, said := peer.said ++ [framed.1] })

def echo (code : WireCode F) (peer : Peer) (header : PacketHeader) : List Bytes × Peer :=
  let sealed := sealAll code.encrypt header peer.sealer [[]]
  (sealed.1, { peer with sealer := sealed.2 })

end Peer

structure Exchange (D F : Type) where
  client : RunLoop D F
  peer : Peer
  outbound : List Bytes
  inbound : List Bytes

inductive ExchangeAction where
  | client (action : RunAction)
  | arrive (bytes : Bytes) (now : Nat)
  | say (inst : TransportInstruction) (mtu : Nat) (header : PacketHeader)
  | echo (header : PacketHeader)

def RunLoop.datagrams {D F : Type} (code : LoopCode F) (run : RunLoop D F) (action : RunAction) : List Bytes :=
  match action, run.phase with
  | .send now stamped _, .sending _ (fragment :: _) =>
    (run.wired.sendFragment code.toWireCode fragment now stamped).1.toList
  | _, _ => []

namespace Exchange

variable {D F : Type}

def start (code : LoopCode F) (display : D) (cols rows : Int32) (predictionOn : Bool) (family : SocketFamily)
    (hopIntervalMs peerNow : Nat) : Exchange D F :=
  { client := RunLoop.start code display cols rows predictionOn family hopIntervalMs
    peer := Peer.start peerNow
    outbound := []
    inbound := [] }

/-- The network loses, delays, repeats and reorders; what it makes up does not open. -/
def Authentic (decrypt : AeadOpen) (opener : MoshOpener) (wire : List Bytes) (bytes : Bytes) : Prop :=
  bytes ∈ wire ∨ ∃ error, opener.openDatagram decrypt bytes = .error error

instance (decrypt : AeadOpen) (opener : MoshOpener) (wire : List Bytes) (bytes : Bytes) :
    Decidable (Authentic decrypt opener wire bytes) :=
  match opened : opener.openDatagram decrypt bytes with
  | .error error => isTrue (.inr ⟨error, opened⟩)
  | .ok _ => decidable_of_iff (bytes ∈ wire) <| by simp [Authentic, opened]

def Admits (code : LoopCode F) (exchange : Exchange D F) : RunAction → Prop
  | .receive bytes _ _ _ => Authentic code.decrypt exchange.client.wired.opener exchange.inbound bytes
  | _ => True

/-- The peer acks what it reported, and frames no two diffs under one header in a row. -/
def allowed (code : LoopCode F) (exchange : Exchange D F) : ExchangeAction → Prop
  | .client action => exchange.client.allowed action ∧ exchange.client.Roomy action ∧ exchange.Admits code action
  | .arrive bytes _ => Authentic code.decrypt exchange.peer.opener exchange.outbound bytes
  | .say inst mtu _ => inst.ackNum ∈ 0 :: exchange.peer.reported ∧
      Fragmenter.Steady (exchange.peer.said.map Sending.call ++ [{ inst := inst, mtu := mtu }]) ∧
      exchange.peer.fragmenter.nextInstructionId + 1 < 2 ^ 64
  | .echo _ => True

instance (code : LoopCode F) (exchange : Exchange D F) (action : RunAction) :
    Decidable (exchange.Admits code action) :=
  match action with
  | .receive _ _ _ _ => inferInstanceAs (Decidable (Authentic _ _ _ _))
  | .wake _ | .command _ | .drained | .send _ _ _ | .settle _ | .nothing | .call _ => inferInstanceAs (Decidable True)

instance (code : LoopCode F) (exchange : Exchange D F) (action : ExchangeAction) :
    Decidable (exchange.allowed code action) :=
  match action with
  | .client _ | .say _ _ _ => inferInstanceAs (Decidable (_ ∧ _ ∧ _))
  | .arrive _ _ => inferInstanceAs (Decidable (Authentic _ _ _ _))
  | .echo _ => inferInstanceAs (Decidable True)

variable [MoshDisplay D]

def next (code : LoopCode F) (exchange : Exchange D F) : ExchangeAction → Exchange D F
  | .client action =>
    { exchange with
      client := exchange.client.next code action
      outbound := exchange.outbound ++ exchange.client.datagrams code action }
  | .arrive bytes now => { exchange with peer := exchange.peer.receive code.toWireCode bytes now }
  | .say inst mtu header =>
    let said := exchange.peer.say code.toWireCode inst mtu header
    { exchange with peer := said.2, inbound := exchange.inbound ++ said.1 }
  | .echo header =>
    let said := exchange.peer.echo code.toWireCode header
    { exchange with peer := said.2, inbound := exchange.inbound ++ said.1 }

end Exchange

def exchangeMachine {D F : Type} [MoshDisplay D] (code : LoopCode F) (first : Exchange D F) :
    Machine (Exchange D F) ExchangeAction where
  init := first
  allowed := Exchange.allowed code
  next := Exchange.next code

instance {D F : Type} [MoshDisplay D] (code : LoopCode F) (first exchange : Exchange D F) (action : ExchangeAction) :
    Decidable ((exchangeMachine code first).allowed exchange action) :=
  inferInstanceAs (Decidable (exchange.allowed code action))

def clientTrace (trace : List ExchangeAction) : List RunAction :=
  trace.filterMap fun
    | .client action => some action
    | _ => none

namespace Exchange

variable {D F : Type} [MoshDisplay D]

theorem client_run {code : LoopCode F} {first : Exchange D F} {trace : List ExchangeAction} {exchange : Exchange D F}
    (run : (exchangeMachine code first).Run trace exchange) :
    (runMachine code first.client).Run (clientTrace trace) exchange.client := by
  refine run.invariant (motive := fun trace exchange =>
    (runMachine code first.client).Run (clientTrace trace) exchange.client) .start ?_
  intro trace exchange action _ ran allowed
  unfold clientTrace
  rw [List.filterMap_append]
  cases action with
  | client action => exact ran.step allowed.1
  | arrive _ _ | say _ _ _ | echo _ =>
    rw [List.filterMap_cons_none rfl, List.filterMap_nil, List.append_nil]
    exact ran

end Exchange

end MoshModel
