import MoshClient.Ssp.SenderSteps
import MoshClient.Library.Transition

namespace MoshModel

/-- A sender ticking into one fragmenter, with what it was given and what it gave out so far. -/
structure SenderConfig where
  sender : SspSender UserStream
  fragmenter : Fragmenter
  clock : Nat
  pushed : List UserEvent
  assigned : List (UInt64 × List UserEvent)
  sendings : List Sending

inductive SenderAction where
  | pushBytes (bytes : Bytes)
  | pushResize (width height : Int32)
  | startShutdown (now : Nat)
  | acknowledge (ack : UInt64)
  | setAckNum (ack : UInt64)
  | setDataAck
  | remoteHeard (ts : Nat)
  | waitTime (now rto sendInterval : Nat)
  | tick (now rto sendInterval mtu : Nat)
deriving DecidableEq

namespace SenderConfig

def start (now sendMindelay : Nat) : SenderConfig :=
  { sender := SspSender.new UserStream.new now sendMindelay, fragmenter := Fragmenter.default, clock := now,
    pushed := [], assigned := [(0, [])], sendings := [] }

def tick (zlib : Zlib) (config : SenderConfig) (now rto sendInterval mtu : Nat) : SenderConfig :=
  let ticked := config.sender.tick zlib now rto sendInterval mtu config.fragmenter
  { config with
    sender := ticked.sender
    fragmenter := ticked.fragmenter
    clock := now
    assigned := config.assigned ++
      (ticked.sending.map fun sending => (sending.call.inst.newNum, config.pushed)).toList
    sendings := config.sendings ++ ticked.sending.toList }

/-- Pushes end with the shutdown, the clock never goes back, and the numbers do not run out. -/
def allowed (config : SenderConfig) : SenderAction → Prop
  | .pushBytes bytes => config.sender.shutdownInProgress = false ∧
      config.sender.currentState.events.length + bytes.length ≤ isizeMax
  | .pushResize _ _ => config.sender.shutdownInProgress = false ∧
      config.sender.currentState.events.length + 1 ≤ isizeMax
  | .startShutdown now => config.clock ≤ now
  | .waitTime now _ _ => config.clock ≤ now
  | .tick now _ _ _ => config.clock ≤ now ∧
      (config.sender.shutdownInProgress = false → config.sender.queue.back.num < shutdownNum - 1)
  | _ => True

instance (config : SenderConfig) (action : SenderAction) : Decidable (config.allowed action) :=
  match action with
  | .pushBytes _ | .pushResize _ _ | .tick _ _ _ _ => inferInstanceAs (Decidable (_ ∧ _))
  | .startShutdown _ | .waitTime _ _ _ => inferInstanceAs (Decidable (_ ≤ _))
  | .acknowledge _ | .setAckNum _ | .setDataAck | .remoteHeard _ => inferInstanceAs (Decidable True)

def next (zlib : Zlib) (config : SenderConfig) : SenderAction → SenderConfig
  | .pushBytes bytes =>
    { config with sender := config.sender.setCurrentState (config.sender.currentState.pushBytes bytes)
                  pushed := config.pushed ++ bytes.map .byte }
  | .pushResize width height =>
    { config with sender := config.sender.setCurrentState (config.sender.currentState.pushResize width height)
                  pushed := config.pushed ++ [.resize width height] }
  | .startShutdown now => { config with sender := config.sender.startShutdown now, clock := now }
  | .acknowledge ack => { config with sender := config.sender.processAcknowledgmentThrough ack }
  | .setAckNum ack => { config with sender := config.sender.setAckNum ack }
  | .setDataAck => { config with sender := config.sender.setDataAck }
  | .remoteHeard ts => { config with sender := config.sender.remoteHeard ts }
  | .waitTime now rto sendInterval =>
    { config with sender := (config.sender.waitTime now rto sendInterval).2, clock := now }
  | .tick now rto sendInterval mtu => config.tick zlib now rto sendInterval mtu

end SenderConfig

open Transition

def senderMachine (zlib : Zlib) (now sendMindelay : Nat) : Machine SenderConfig SenderAction where
  init := SenderConfig.start now sendMindelay
  allowed := SenderConfig.allowed
  next := SenderConfig.next zlib

instance (zlib : Zlib) (now sendMindelay : Nat) (config : SenderConfig) (action : SenderAction) :
    Decidable ((senderMachine zlib now sendMindelay).allowed config action) :=
  inferInstanceAs (Decidable (config.allowed action))

end MoshModel
