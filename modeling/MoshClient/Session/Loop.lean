import MoshClient.Session.HostStream
import MoshClient.Session.Prediction
import MoshClient.Ssp.ReceiverRuns
import MoshClient.Ssp.SenderSteps
import MoshClient.Library.Transition

namespace MoshModel

class MoshDisplay (D : Type) where
  newBlank : UInt64 → UInt64 → D
  feed : D → Bytes → D
  resize : D → UInt64 → UInt64 → D
  cols : D → UInt64
  rows : D → UInt64
  cursor : D → Int32 × Int32 × Bool

/-- A display with all it was fed since it was made. -/
structure FedDisplay (D : Type) where
  engine : D
  fed : List HostEvent
deriving DecidableEq

inductive SessionCommand where
  | input (bytes : Bytes)
  | resize (width height : Int32)
  | startShutdown
  | terminate
deriving DecidableEq

inductive SessionEvent where
  | screenChanged (hostNum : UInt64)
  | ended (clean : Bool) (error : Option String)
deriving DecidableEq

/-- The counters that `handle_datagram` and the handle share, less those of the clock and the sockets. -/
structure Shared where
  frameVersion : UInt64
  lastRoundtripMs : Nat
  neverHeard : Bool
  userAcked : UInt64
  captureHostBytes : Bool
deriving DecidableEq

structure SessionLoop (D : Type) where
  sender : SspSender UserStream
  receiver : SspReceiver HostStreamState
  display : FedDisplay D
  engineAt : EventLog
  fragmenter : Fragmenter
  shared : Shared
  pendingBytes : Bytes
  prediction : PredictionState
  events : List SessionEvent
  lastRoundtripSuccess : Nat
  fatal : Option String

def applyRecvOutcome {Sent Recv : Type} (sender : SspSender Sent) (outcome : RecvOutcome Recv) (now : Nat) :
    SspSender Sent :=
  match outcome with
  | .latest num hadDiff _ =>
    let heard := (sender.setAckNum num).remoteHeard now
    if hadDiff then heard.setDataAck else heard
  | .outOfOrder _ _ => sender
  | .duplicate | .noReference | .quenched => sender

namespace SessionLoop

variable {D : Type}

def start (display : D) (cols rows : Int32) (predictionOn : Bool) : SessionLoop D :=
  let sender := SspSender.new UserStream.new 0 1
  { sender := sender.setCurrentState (sender.currentState.pushResize cols rows)
    receiver := SspReceiver.new HostStreamState.new 0
    display := { engine := display, fed := [] }
    engineAt := EventLog.new
    fragmenter := Fragmenter.default
    shared := { frameVersion := 1, lastRoundtripMs := 0, neverHeard := true, userAcked := 0,
                captureHostBytes := true }
    pendingBytes := []
    prediction := PredictionState.new predictionOn
    events := []
    lastRoundtripSuccess := 0
    fatal := none }

def acknowledge (loop : SessionLoop D) (ack : UInt64) : SessionLoop D :=
  let sender := loop.sender.processAcknowledgmentThrough ack
  { loop with
    sender := sender
    lastRoundtripSuccess := sender.queue.front.timestamp
    shared := { loop.shared with
                userAcked := sender.queue.front.num, lastRoundtripMs := sender.queue.front.timestamp } }

def retirePredictions (loop : SessionLoop D) (echoAck : UInt64) : Bool × SessionLoop D :=
  let take := loop.prediction.confirmedPrefixLen echoAck
  (0 < take,
    { loop with
      prediction := { loop.prediction with
        cells := loop.prediction.cells.drop take, frames := loop.prediction.frames.drop take } })

variable [MoshDisplay D]

def feedDisplay (capture : Bool) (screen : FedDisplay D × Bytes) (event : HostEvent) :
    FedDisplay D × Bytes :=
  match event with
  | .bytes bytes =>
    ({ engine := MoshDisplay.feed screen.1.engine bytes, fed := screen.1.fed ++ [event] },
      if capture then screen.2 ++ bytes else screen.2)
  | .resize width height =>
    ({ engine := MoshDisplay.resize screen.1.engine (int32AsUInt64 width) (int32AsUInt64 height)
       fed := screen.1.fed ++ [event] }, screen.2)

def feedAll (loop : SessionLoop D) (display : FedDisplay D) (events : List HostEvent) : SessionLoop D :=
  let screen := events.foldl (feedDisplay loop.shared.captureHostBytes) (display, loop.pendingBytes)
  { loop with display := screen.1, pendingBytes := screen.2 }

/-- Brings the display to the newest state's log, and whether it was fed for that. -/
def advanceEngine (loop : SessionLoop D) : Bool × SessionLoop D :=
  let latest := loop.receiver.latestState
  match latest.log.suffixOver loop.engineAt with
  | some suffix =>
    if suffix.isEmpty then (false, loop)
    else (true, { loop.feedAll loop.display suffix with engineAt := latest.log })
  | none =>
    let fresh : FedDisplay D :=
      { engine := MoshDisplay.newBlank (MoshDisplay.cols loop.display.engine) (MoshDisplay.rows loop.display.engine)
        fed := [] }
    (true, { loop.feedAll fresh latest.log.iter with engineAt := latest.log })

/-- The `Latest` arm, once the sender has been told. -/
def showLatest (loop : SessionLoop D) (num : UInt64) : SessionLoop D :=
  let (fed, advanced) := loop.advanceEngine
  -- retired after the real bytes landed
  let (retired, settled) := advanced.retirePredictions advanced.receiver.latestState.echoAck
  if retired || fed then
    { settled with
      shared := { settled.shared with frameVersion := settled.shared.frameVersion + 1 }
      events := settled.events ++ [.screenChanged num] }
  else settled

/-- `handle_datagram` from the reassembled instruction on. -/
def handleInstruction (loop : SessionLoop D) (addresses : Nat → Address) (inst : TransportInstruction)
    (now : Nat) : SessionLoop D :=
  if inst.protocolVersion ≠ moshProtocolVersion then
    { loop with fatal := some s!"mosh: {(SspError.protocolVersion inst.protocolVersion).message}" }
  else
    let acked := loop.acknowledge inst.ackNum
    match acked.receiver.processInstruction (HostStreamState.applyString addresses) inst now with
    | (.ok (.latest num hadDiff state), receiver) =>
      { acked with
        receiver := receiver
        sender := applyRecvOutcome acked.sender (.latest num hadDiff state) now
        shared := { acked.shared with neverHeard := false } }.showLatest num
    | (.ok (.outOfOrder num hadDiff), receiver) =>
      { acked with
        receiver := receiver
        sender := applyRecvOutcome acked.sender
          (.outOfOrder num hadDiff : RecvOutcome HostStreamState) now }
    | (.ok _, receiver) => { acked with receiver := receiver }
    | (.error e, receiver) => { acked with receiver := receiver, fatal := some s!"mosh: {e.message}" }

def predictInput (loop : SessionLoop D) (bytes : Bytes) : SessionLoop D :=
  if pasteThreshold < bytes.length then loop
  else
    let (col, row, _) := MoshDisplay.cursor loop.display.engine
    let frame := loop.sender.queue.back.num + 1
    if !loop.prediction.enabled then loop
    else
      let placed := if loop.prediction.cursor.isNone
        then { loop.prediction with cursor := some (col, row) } else loop.prediction
      { loop with
        prediction := placed.feed (uint64AsInt32 (MoshDisplay.cols loop.display.engine))
          (uint64AsInt32 (MoshDisplay.rows loop.display.engine)) frame bytes }

def drainCommand (loop : SessionLoop D) (now : Nat) : SessionCommand → SessionLoop D
  | .input bytes =>
    if loop.sender.shutdownInProgress then loop
    else
      let pushed := loop.sender.setCurrentState (loop.sender.currentState.pushBytes bytes)
      { loop with sender := pushed }.predictInput bytes
  | .resize width height =>
    if loop.sender.shutdownInProgress then loop
    else { loop with sender := loop.sender.setCurrentState (loop.sender.currentState.pushResize width height) }
  | .startShutdown => { loop with sender := loop.sender.startShutdown now }
  | .terminate => loop

def resizeDisplay (loop : SessionLoop D) (width height : Int32) : SessionLoop D :=
  if 2 ≤ width ∧ 2 ≤ height then
    { loop with
      display := { loop.display with
        engine := MoshDisplay.resize loop.display.engine (int32AsUInt64 width) (int32AsUInt64 height) }
      shared := { loop.shared with frameVersion := loop.shared.frameVersion + 1 } }
  else loop

end SessionLoop

/-- The steps of the loop and the calls on its handle, as the handle and the sockets interleave them. -/
inductive SessionAction where
  | handle (inst : TransportInstruction) (addresses : Nat → Address) (now : Nat)
  | drain (command : SessionCommand) (now : Nat)
  | tick (now rto sendInterval mtu : Nat)
  | waitTime (now rto sendInterval : Nat)
  | resizeDisplay (width height : Int32)
  | takeHostBytes
  | setHostBytesCapture (enabled : Bool)
  | setPrediction (enabled : Bool)

namespace SessionLoop

variable {D : Type} [MoshDisplay D]

def next (zlib : Zlib) (loop : SessionLoop D) : SessionAction → SessionLoop D
  | .handle inst addresses now => loop.handleInstruction addresses inst now
  | .drain command now => loop.drainCommand now command
  | .tick now rto sendInterval mtu =>
    let ticked := loop.sender.tick zlib now rto sendInterval mtu loop.fragmenter
    { loop with sender := ticked.sender, fragmenter := ticked.fragmenter }
  | .waitTime now rto sendInterval => { loop with sender := (loop.sender.waitTime now rto sendInterval).2 }
  | .resizeDisplay width height => loop.resizeDisplay width height
  | .takeHostBytes => { loop with pendingBytes := [] }
  | .setHostBytesCapture enabled => { loop with shared := { loop.shared with captureHostBytes := enabled } }
  | .setPrediction enabled =>
    let switched := { loop.prediction with enabled := enabled }
    { loop with prediction := if enabled then switched else switched.clear }

end SessionLoop

open Transition

def sessionMachine {D : Type} [MoshDisplay D] (zlib : Zlib) (first : SessionLoop D) :
    Machine (SessionLoop D) SessionAction where
  init := first
  allowed _ _ := True
  next := SessionLoop.next zlib

end MoshModel
