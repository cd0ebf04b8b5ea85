import MoshClient.Session.WiredLoop
import MoshClient.Session.SessionRuns
import MoshClient.Fragment.LastAck

namespace MoshModel

def portHopIntervalMs : Nat := 10000
def maxPortsOpen : Nat := 10
def maxOldSocketAgeMs : Nat := 60000
def pollCapMs : Nat := 50
def oldSocketDrainCap : Nat := 64
def defaultSendMtu : Nat := 500

inductive SocketFamily where
  | v4
  | v6
deriving DecidableEq

def mtuFor : SocketFamily → Nat
  | .v4 => 1280 - 20 - 8
  | .v6 => 1280 - 40 - 16 - 8

/-- The code outside the loop, with the estimates drawn from the smoothed round trip and its deviation. -/
structure LoopCode (F : Type) extends WireCode F where
  rto : F → F → Nat
  sendInterval : F → Nat

inductive Phase where
  | waking
  | draining (now : Nat)
  | sending (now : Nat) (out : List Fragment)
  -- the newest socket is still to be read while there is a wait, then the older ones
  | receiving (wait : Option Nat) (older : List Nat) (drained : Nat)
  | finished
deriving DecidableEq

/-- The loop thread, with its sockets by the order they were bound in, newest last, and the last reading
    of its clock. -/
structure RunLoop (D F : Type) where
  wired : WiredLoop D F
  phase : Phase
  clock : Nat
  socks : List Nat
  mtu : Nat
  lastPortChoice : Nat
  hopIntervalMs : Nat
  portsOpened : Nat
  nowMs : Nat
  rtoMs : Nat

/-- The calls on the handle that reach the shared state past the command queue. -/
inductive HandleCall where
  | resizeDisplay (width height : Int32)
  | takeHostBytes
  | setHostBytesCapture (enabled : Bool)
  | setPrediction (enabled : Bool)

def HandleCall.action : HandleCall → SessionAction
  | .resizeDisplay width height => .resizeDisplay width height
  | .takeHostBytes => .takeHostBytes
  | .setHostBytesCapture enabled => .setHostBytesCapture enabled
  | .setPrediction enabled => .setPrediction enabled

/-- The steps of `run`, with what the queue, the clock and the sockets answer, and the calls in between. -/
inductive RunAction where
  | wake (now : Nat)
  | command (command : SessionCommand)
  | drained
  | send (now stamped : Nat) (oversize : Bool)
  | settle (bound : Bool)
  | receive (bytes : Bytes) (addresses : Nat → Address) (now sampled : Nat)
  | nothing
  | call (call : HandleCall)

namespace RunLoop

variable {D F : Type}

def start (code : LoopCode F) (display : D) (cols rows : Int32) (predictionOn : Bool) (family : SocketFamily)
    (hopIntervalMs : Nat) : RunLoop D F :=
  { wired := WiredLoop.start code.toWireCode display cols rows predictionOn
    phase := .waking
    clock := 0
    socks := [0]
    mtu := mtuFor family
    lastPortChoice := 0
    hopIntervalMs := hopIntervalMs
    portsOpened := 1
    nowMs := 0
    rtoMs := 1000 }

def rto (code : LoopCode F) (run : RunLoop D F) : Nat := code.rto run.wired.timing.srtt run.wired.timing.rttvar

def sendInterval (code : LoopCode F) (run : RunLoop D F) : Nat := code.sendInterval run.wired.timing.srtt

def ended (run : RunLoop D F) (clean : Bool) (error : Option String) : RunLoop D F :=
  { run with
    wired := { run.wired with
      loop := { run.wired.loop with events := run.wired.loop.events ++ [.ended clean error] } }
    phase := .finished }

def maybeHopPort (run : RunLoop D F) (now : Nat) (bound : Bool) : RunLoop D F :=
  if now - run.lastPortChoice ≤ run.hopIntervalMs then run
  else if now - run.wired.loop.lastRoundtripSuccess ≤ run.hopIntervalMs then run
  else if bound then
    { run with
      socks := run.socks ++ [run.portsOpened], lastPortChoice := now, portsOpened := run.portsOpened + 1 }
  else run

def pruneSockets (run : RunLoop D F) (now : Nat) : RunLoop D F :=
  let kept := if 1 < run.socks.length ∧ maxOldSocketAgeMs < now - run.lastPortChoice
    then run.socks.drop (run.socks.length - 1) else run.socks
  { run with socks := kept.drop (kept.length - maxPortsOpen) }

def nextSocket (older : List Nat) (drained : Nat) : Phase :=
  match older with
  | [] => .waking
  | _ => .receiving none older drained

/-- After a datagram: the newest socket gives one at a time, an older one all that it has, up to the cap. -/
def readOn (wait : Option Nat) (older : List Nat) (drained : Nat) : Phase :=
  match wait with
  | some _ => nextSocket older drained
  | none =>
    if oldSocketDrainCap ≤ drained + 1 then nextSocket older.tail (drained + 1)
    else .receiving none older (drained + 1)

def passOn (wait : Option Nat) (older : List Nat) (drained : Nat) : Phase :=
  match wait with
  | some _ => nextSocket older drained
  | none => nextSocket older.tail drained

variable [MoshDisplay D]

def drainCommand (code : LoopCode F) (run : RunLoop D F) (now : Nat) (command : SessionCommand) : RunLoop D F :=
  match command with
  | .terminate => { run with phase := .finished }
  | _ => { run with wired := run.wired.next code.toWireCode (.inner (.drain command now)) }

def tick (code : LoopCode F) (run : RunLoop D F) (now : Nat) : RunLoop D F :=
  match run.wired.loop.fatal with
  | some error => run.ended false (some error)
  | none =>
    let loop := run.wired.loop
    let mtu := fragmentMtu run.mtu
    let ticked := loop.sender.tick code.zlib now (run.rto code) (run.sendInterval code) mtu loop.fragmenter
    { run with
      wired := run.wired.next code.toWireCode (.inner (.tick now (run.rto code) (run.sendInterval code) mtu))
      rtoMs := run.rto code
      phase := .sending now ((ticked.sending.map Sending.fragments).getD []) }

def sendFragment (code : LoopCode F) (run : RunLoop D F) (fragment : Fragment) (now stamped : Nat)
    (oversize : Bool) : RunLoop D F :=
  let (datagram, wired) := run.wired.sendFragment code.toWireCode fragment now stamped
  { run with wired := wired, mtu := if datagram.isSome ∧ oversize then defaultSendMtu else run.mtu }

def settle (code : LoopCode F) (run : RunLoop D F) (now : Nat) (bound : Bool) : RunLoop D F :=
  let settled := (run.maybeHopPort now bound).pruneSockets now
  let sender := settled.wired.loop.sender
  if sender.counterpartyShutdownAcknowledged settled.wired.loop.fragmenter then settled.ended true none
  else if sender.shutdownInProgress && (sender.shutdownAcknowledged || sender.shutdownAckTimedOut now) then
    settled.ended sender.shutdownAcknowledged none
  else
    let wait := (sender.waitTime now (settled.rto code) (settled.sendInterval code)).1
    { settled with
      wired := settled.wired.next code.toWireCode
        (.inner (.waitTime now (settled.rto code) (settled.sendInterval code)))
      phase := .receiving (some (max 1 (min wait pollCapMs))) settled.socks.dropLast.reverse 0 }

def next (code : LoopCode F) (run : RunLoop D F) (action : RunAction) : RunLoop D F :=
  match action, run.phase with
  | .wake now, .waking => { run with phase := .draining now, clock := now, nowMs := now }
  | .command command, .draining now => run.drainCommand code now command
  | .drained, .draining now => run.tick code now
  | .send now stamped oversize, .sending top (fragment :: out) =>
    { run with phase := .sending top out, clock := stamped }.sendFragment code fragment now stamped oversize
  | .settle bound, .sending top [] => run.settle code top bound
  | .receive bytes addresses now sampled, .receiving wait older drained =>
    { run with
      wired := run.wired.handleDatagram code.toWireCode addresses bytes now sampled
      phase := readOn wait older drained
      clock := sampled }
  | .nothing, .receiving wait older drained => { run with phase := passOn wait older drained }
  | .call call, _ => { run with wired := run.wired.next code.toWireCode (.inner call.action) }
  | _, _ => run

omit [MoshDisplay D] in
/-- The steps the phase admits; the clock never goes back. -/
def allowed (run : RunLoop D F) (action : RunAction) : Prop :=
  match action, run.phase with
  | .wake now, .waking => run.clock ≤ now
  | .command _, .draining _ => True
  | .drained, .draining _ => True
  | .send now stamped _, .sending _ (_ :: _) => run.clock ≤ now ∧ now ≤ stamped
  | .settle _, .sending _ [] => True
  | .receive _ _ now sampled, .receiving _ _ _ => run.clock ≤ now ∧ now ≤ sampled
  | .nothing, .receiving _ _ _ => True
  | .call _, _ => True
  | _, _ => False

end RunLoop

instance {D F : Type} (run : RunLoop D F) (action : RunAction) : Decidable (run.allowed action) := by
  unfold RunLoop.allowed
  split <;> infer_instance

open Transition

def runMachine {D F : Type} [MoshDisplay D] (code : LoopCode F) (first : RunLoop D F) :
    Machine (RunLoop D F) RunAction where
  init := first
  allowed := RunLoop.allowed
  next := RunLoop.next code

instance {D F : Type} [MoshDisplay D] (code : LoopCode F) (first run : RunLoop D F) (action : RunAction) :
    Decidable ((runMachine code first).allowed run action) := inferInstanceAs (Decidable (run.allowed action))

def sampleCode : LoopCode Nat where
  encrypt := sealing sampleEncrypt
  decrypt := sampleDecrypt
  zlib := sampleZlib
  smoothing := wholeMs
  rto srtt rttvar := min 1000 (max 50 (srtt + 4 * rttvar))
  sendInterval srtt := min 250 (max 20 ((srtt + 1) / 2))

def sampleStart : RunLoop PlainScreen Nat := .start sampleCode (MoshDisplay.newBlank 80 24) 80 24 true .v4 portHopIntervalMs

end MoshModel
