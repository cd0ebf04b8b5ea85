import MoshClient.Ssp.SentQueue
import MoshClient.Fragment.Sending

namespace MoshModel

def ackIntervalMs : Nat := 3000
def activeRetryTimeoutMs : Nat := 10000
def shutdownRetries : Nat := 16

structure SspSender (S : Type) where
  currentState : S
  queue : SentQueue S
  ackNum : UInt64
  nextAckTime : Nat
  nextSendTime : Option Nat
  mindelayClock : Option Nat
  pendingDataAck : Bool
  shutdownInProgress : Bool
  shutdownTries : Nat
  shutdownStart : Option Nat
  lastHeard : Nat
  sendMindelay : Nat

/-- A tick: the sender and fragmenter it leaves, and the call of `make_fragments` it made, whose
    fragments go out. -/
structure Ticked (S : Type) where
  sender : SspSender S
  fragmenter : Fragmenter
  sending : Option Sending

namespace SspSender

variable {S : Type}

def new (initialState : S) (now sendMindelay : Nat) : SspSender S :=
  { currentState := initialState, queue := SentQueue.new now initialState, ackNum := 0,
    nextAckTime := now + ackIntervalMs, nextSendTime := none, mindelayClock := none,
    pendingDataAck := false, shutdownInProgress := false, shutdownTries := 0, shutdownStart := none,
    lastHeard := now, sendMindelay := sendMindelay }

def setCurrentState (sender : SspSender S) (state : S) : SspSender S := { sender with currentState := state }

def startShutdown (sender : SspSender S) (now : Nat) : SspSender S :=
  if sender.shutdownInProgress then sender
  else { sender with shutdownStart := some now, shutdownInProgress := true }

def shutdownAcknowledged (sender : SspSender S) : Bool := sender.queue.front.num = shutdownNum

def shutdownAckTimedOut (sender : SspSender S) (now : Nat) : Bool :=
  if sender.shutdownInProgress then
    if shutdownRetries ≤ sender.shutdownTries then true
    else
      match sender.shutdownStart with
      | some start => activeRetryTimeoutMs ≤ now - start
      | none => false
  else false

def processAcknowledgmentThrough (sender : SspSender S) (ack : UInt64) : SspSender S :=
  { sender with queue := sender.queue.processAcknowledgmentThrough ack }

def setAckNum (sender : SspSender S) (ack : UInt64) : SspSender S := { sender with ackNum := ack }

def setDataAck (sender : SspSender S) : SspSender S := { sender with pendingDataAck := true }

def remoteHeard (sender : SspSender S) (ts : Nat) : SspSender S := { sender with lastHeard := ts }

def updateAssumedReceiverState (sender : SspSender S) (now rto : Nat) : SspSender S :=
  { sender with queue := sender.queue.updateAssumedReceiverState now rto }

variable [SspSentState S]

def rationalizeStates (sender : SspSender S) : SspSender S :=
  if sender.queue.sentStates.length < 2 then sender
  else
    let known := sender.queue.front.state
    { sender with
      currentState := SspSentState.subtract sender.currentState known
      queue := sender.queue.mapStates fun state => SspSentState.subtract state known }

def computeTimers [DecidableEq S] (sender : SspSender S) (now rto sendInterval : Nat) :
    (Option Nat × Option Nat) × SspSender S :=
  let hurried := if sender.pendingDataAck ∧ now + ackDelayMs < sender.nextAckTime
    then now + ackDelayMs else sender.nextAckTime
  let back := sender.queue.back
  let mindelayClock := if sender.currentState ≠ back.state ∧ sender.mindelayClock = none
    then some now else sender.mindelayClock
  let nextSend :=
    if sender.currentState ≠ back.state then
      let floor := match mindelayClock with
        | some m => m + sender.sendMindelay
        | none => now
      some (max floor (back.timestamp + sendInterval))
    else if sender.currentState ≠ sender.queue.assumed.state ∧
        now < sender.lastHeard + activeRetryTimeoutMs then
      match mindelayClock with
      | some m => some (max (back.timestamp + sendInterval) (m + sender.sendMindelay))
      | none => some (back.timestamp + sendInterval)
    else if 1 < sender.queue.sentStates.length ∧ sender.currentState ≠ sender.queue.front.state ∧
        now < sender.lastHeard + activeRetryTimeoutMs then
      some (back.timestamp + rto + ackDelayMs)
    else none
  let nextAckTime := if sender.shutdownInProgress ∨ sender.ackNum = shutdownNum
    then back.timestamp + sendInterval else hurried
  ((nextSend, some nextAckTime),
    { sender with nextAckTime := nextAckTime, mindelayClock := mindelayClock })

def waitTime [DecidableEq S] (sender : SspSender S) (now rto sendInterval : Nat) : Nat × SspSender S :=
  let timed := sender.computeTimers now rto sendInterval
  let earliest := match timed.1 with
    | (some a, some b) => some (min a b)
    | (a, b) => a.or b
  (match earliest with
    | some t => t - now
    | none => 2 ^ 64 - 1, timed.2)

def attemptProspectiveResendOptimization (sender : SspSender S) (proposed : Bytes) :
    Bytes × SspSender S :=
  if sender.queue.assumedReceiver = 0 ∨ sender.queue.sentStates.length < 2 then (proposed, sender)
  else
    let resend := SspSentState.diffFrom sender.currentState sender.queue.front.state
    if resend.length ≤ proposed.length ∨
        (resend.length < 1000 ∧ resend.length - proposed.length < 100) then
      (resend, { sender with queue := sender.queue.assumeFront })
    else (proposed, sender)

def frame (sender : SspSender S) (diff : Bytes) (oldNum newNum : UInt64) : TransportInstruction :=
  { protocolVersion := moshProtocolVersion, oldNum := oldNum, newNum := newNum, ackNum := sender.ackNum,
    throwawayNum := sender.queue.front.num, diff := diff, chaff := [] }

def sendInFragments (zlib : Zlib) (sender : SspSender S) (diff : Bytes) (oldNum newNum : UInt64) (mtu : Nat)
    (fragmenter : Fragmenter) : Ticked S :=
  let inst := sender.frame diff oldNum newNum
  let tried := if newNum = shutdownNum
    then { sender with shutdownTries := sender.shutdownTries + 1 } else sender
  match fragmenter.makeFragments zlib inst mtu with
  | (.error _, after) =>
    { sender := tried, fragmenter := after,
      sending := some { call := { inst := inst, mtu := mtu }, fragments := [] } }
  | (.ok fragments, after) =>
    { sender := { tried with pendingDataAck := false }, fragmenter := after,
      sending := some { call := { inst := inst, mtu := mtu }, fragments := fragments } }

def sendEmptyAck (zlib : Zlib) (sender : SspSender S) (now mtu : Nat) (fragmenter : Fragmenter) : Ticked S :=
  let newNum := if sender.shutdownInProgress then shutdownNum else sender.queue.back.num + 1
  -- named before the append, whose cull may shift the indices
  let oldNum := sender.queue.assumed.num
  let added := { sender with queue := sender.queue.addSentState now newNum sender.currentState }
  let ticked := added.sendInFragments zlib [] oldNum newNum mtu fragmenter
  { ticked with
    sender := { ticked.sender with nextAckTime := now + ackIntervalMs, nextSendTime := none } }

def sendToReceiver [DecidableEq S] (zlib : Zlib) (sender : SspSender S) (now : Nat) (diff : Bytes)
    (mtu : Nat) (fragmenter : Fragmenter) : Ticked S :=
  let back := sender.queue.back
  let counted := if sender.currentState = back.state then back.num else back.num + 1
  let newNum := if sender.shutdownInProgress then shutdownNum else counted
  let oldNum := sender.queue.assumed.num
  let added := { sender with
    queue := if newNum = back.num then sender.queue.refreshBack now
      else sender.queue.addSentState now newNum sender.currentState }
  let ticked := added.sendInFragments zlib diff oldNum newNum mtu fragmenter
  { ticked with
    sender := { ticked.sender with
      queue := ticked.sender.queue.assumeBack, nextAckTime := now + ackIntervalMs, nextSendTime := none } }

def sendDue [DecidableEq S] (zlib : Zlib) (sender : SspSender S) (dueSend dueAck : Bool) (now mtu : Nat)
    (fragmenter : Fragmenter) : Ticked S :=
  let proposed := SspSentState.diffFrom sender.currentState sender.queue.assumed.state
  let (diff, based) := sender.attemptProspectiveResendOptimization proposed
  if diff.isEmpty then
    let ticked := if dueAck then
        let sent := based.sendEmptyAck zlib now mtu fragmenter
        { sent with sender := { sent.sender with mindelayClock := none } }
      else { sender := based, fragmenter := fragmenter, sending := none }
    if dueSend then
      { ticked with sender := { ticked.sender with nextSendTime := none, mindelayClock := none } }
    else ticked
  else
    let sent := based.sendToReceiver zlib now diff mtu fragmenter
    { sent with sender := { sent.sender with mindelayClock := none } }

def tick [DecidableEq S] (zlib : Zlib) (sender : SspSender S) (now rto sendInterval mtu : Nat)
    (fragmenter : Fragmenter) : Ticked S :=
  let prepared := (sender.updateAssumedReceiverState now rto).rationalizeStates
  let ((nextSend, nextAck), timed) := prepared.computeTimers now rto sendInterval
  let dueSend := nextSend.any (· ≤ now)
  let dueAck := nextAck.any (· ≤ now)
  if !dueSend && !dueAck then { sender := timed, fragmenter := fragmenter, sending := none }
  else timed.sendDue zlib dueSend dueAck now mtu fragmenter

end SspSender

end MoshModel
