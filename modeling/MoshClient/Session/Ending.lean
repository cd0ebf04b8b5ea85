import MoshClient.Session.Sockets
import MoshClient.Session.SessionRuns
import MoshClient.Ssp.ShutdownTries

namespace MoshModel

open Transition

namespace SessionLoop

variable {D : Type}

/-- The fields of a shutdown of our own. -/
def shutdownFields (loop : SessionLoop D) : Option Nat × Bool × Nat :=
  (loop.sender.shutdownStart, loop.sender.shutdownInProgress, loop.sender.shutdownTries)

/-- What a step tells the embedder: nothing, or the number of a newer screen. -/
inductive Announced (loop after : SessionLoop D) : Prop
  | silent (events : after.events = loop.events)
      (grown : loop.receiver.latest.num ≤ after.receiver.latest.num) : Announced loop after
  | screen {num : UInt64} (events : after.events = loop.events ++ [.screenChanged num])
      (newer : loop.receiver.latest.num < num) (newest : after.receiver.latest.num = num) : Announced loop after

theorem Announced.of_fields {loop after : SessionLoop D} (events : after.events = loop.events)
    (receiver : after.receiver.latest.num = loop.receiver.latest.num) : Announced loop after :=
  .silent events (UInt64.le_of_eq receiver.symm)

variable [MoshDisplay D]

theorem showLatest_events (loop : SessionLoop D) (num : UInt64) :
    ((loop.showLatest num).events = loop.events ∨
        (loop.showLatest num).events = loop.events ++ [.screenChanged num]) ∧
      (loop.showLatest num).receiver = loop.receiver ∧
      (loop.showLatest num).shutdownFields = loop.shutdownFields := by
  have events : loop.advanceEngine.2.events = loop.events := by
    unfold advanceEngine
    dsimp only
    split
    · split <;> rfl
    · rfl
  obtain ⟨-, receiver, sender, -⟩ := loop.showLatest_spec num
  refine ⟨?_, receiver, ?_⟩
  · unfold showLatest
    generalize loop.advanceEngine = advance at *
    obtain ⟨fed, advanced⟩ := advance
    dsimp only at events ⊢
    split
    · right
      rw [← events]
      rfl
    · exact .inl events
  · unfold shutdownFields
    rw [sender]

theorem applyRecvOutcome_shutdown {Sent Recv : Type} (sender : SspSender Sent) (outcome : RecvOutcome Recv)
    (now : Nat) :
    let told := applyRecvOutcome sender outcome now
    told.shutdownStart = sender.shutdownStart ∧ told.shutdownInProgress = sender.shutdownInProgress ∧
      told.shutdownTries = sender.shutdownTries := by
  cases outcome with
  | latest num hadDiff state => cases hadDiff <;> exact ⟨rfl, rfl, rfl⟩
  | outOfOrder _ _ | duplicate | noReference | quenched => exact ⟨rfl, rfl, rfl⟩

theorem handleInstruction_announced {loop : SessionLoop D} (linked : Linked loop) (addresses : Nat → Address)
    (inst : TransportInstruction) (now : Nat) :
    Announced loop (loop.handleInstruction addresses inst now) ∧
      (loop.handleInstruction addresses inst now).shutdownFields = loop.shutdownFields ∧
      (loop.handleInstruction addresses inst now).fragmenter = loop.fragmenter := by
  unfold handleInstruction
  by_cases version : inst.protocolVersion ≠ moshProtocolVersion
  · rw [if_pos version]
    exact ⟨.of_fields rfl rfl, rfl, rfl⟩
  · rw [if_neg version]
    have newest := (SspReceiver.processInstruction_latest (HostStreamState.applyString addresses)
      linked.ascending inst now).2
    dsimp only
    rw [show (loop.acknowledge inst.ackNum).receiver = loop.receiver from rfl]
    generalize loop.receiver.processInstruction (HostStreamState.applyString addresses) inst now = outcome at *
    obtain ⟨result, receiver⟩ := outcome
    have older : (∀ num hadDiff state, result ≠ .ok (.latest num hadDiff state)) →
        receiver.latest.num = loop.receiver.latest.num := by
      intro older
      obtain ⟨num, hadDiff, state, isLatest, -⟩ | ⟨-, same⟩ := newest
      · exact absurd isLatest (older num hadDiff state)
      · exact congrArg TimestampedState.num same
    cases result with
    | error e => exact ⟨.of_fields rfl (older fun _ _ _ same => by cases same), rfl, rfl⟩
    | ok outcome =>
      cases outcome with
      | latest num hadDiff state =>
        obtain ⟨_, _, _, isLatest, newer, last⟩ | ⟨older, -⟩ := newest
        · cases isLatest
          obtain ⟨start, shutdown, tries⟩ :=
            applyRecvOutcome_shutdown (loop.acknowledge inst.ackNum).sender (.latest num hadDiff state) now
          dsimp only
          generalize heardEq : ({ loop.acknowledge inst.ackNum with
            receiver := receiver
            sender := applyRecvOutcome (loop.acknowledge inst.ackNum).sender (.latest num hadDiff state) now
            shared := { (loop.acknowledge inst.ackNum).shared with neverHeard := false } } : SessionLoop D) = heard
          have fields : heard.receiver = receiver ∧ heard.events = loop.events ∧
              heard.shutdownFields = loop.shutdownFields ∧ heard.fragmenter = loop.fragmenter := by
            subst heardEq
            refine ⟨rfl, rfl, ?_, rfl⟩
            unfold shutdownFields
            rw [start, shutdown, tries]
            rfl
          obtain ⟨queue, events, shutdown, fragmenter⟩ := fields
          obtain ⟨shown, sameQueue, sameShutdown⟩ := heard.showLatest_events num
          have number : (heard.showLatest num).receiver.latest.num = num := by
            rw [sameQueue, queue]
            exact congrArg TimestampedState.num last
          refine ⟨?_, sameShutdown.trans shutdown, (heard.showLatest_spec num).2.2.2.1.trans fragmenter⟩
          rw [events] at shown
          cases shown with
          | inl silent => exact .silent silent (by rw [number]; exact UInt64.le_of_lt newer)
          | inr screen => exact .screen screen newer number
        · exact absurd rfl (older num hadDiff state)
      | outOfOrder num hadDiff => exact ⟨.of_fields rfl (older fun _ _ _ same => by cases same), rfl, rfl⟩
      | duplicate => exact ⟨.of_fields rfl (older fun _ _ _ same => by cases same), rfl, rfl⟩
      | noReference => exact ⟨.of_fields rfl (older fun _ _ _ same => by cases same), rfl, rfl⟩
      | quenched => exact ⟨.of_fields rfl (older fun _ _ _ same => by cases same), rfl, rfl⟩

/-- A step that is no instruction received, no tick and no start of the shutdown. -/
def Quiet (action : SessionAction) : Prop :=
  (∀ inst addresses now, action ≠ .handle inst addresses now) ∧
    (∀ now rto sendInterval mtu, action ≠ .tick now rto sendInterval mtu) ∧
    ∀ now, action ≠ .drain .startShutdown now

theorem next_quiet (zlib : Zlib) (loop : SessionLoop D) {action : SessionAction} (quiet : Quiet action) :
    let after := loop.next zlib action
    after.events = loop.events ∧ after.shutdownFields = loop.shutdownFields ∧
      after.fragmenter = loop.fragmenter ∧ after.fatal = loop.fatal ∧
      after.sender.queue = loop.sender.queue ∧ after.lastRoundtripSuccess = loop.lastRoundtripSuccess := by
  intro after
  obtain ⟨unhandled, unticked, staying⟩ := quiet
  cases action with
  | handle inst addresses now => exact absurd rfl (unhandled inst addresses now)
  | tick now rto sendInterval mtu => exact absurd rfl (unticked now rto sendInterval mtu)
  | waitTime now rto sendInterval => exact ⟨rfl, rfl, rfl, rfl, rfl, rfl⟩
  | takeHostBytes => exact ⟨rfl, rfl, rfl, rfl, rfl, rfl⟩
  | setHostBytesCapture enabled => exact ⟨rfl, rfl, rfl, rfl, rfl, rfl⟩
  | setPrediction enabled => exact ⟨rfl, rfl, rfl, rfl, rfl, rfl⟩
  | resizeDisplay width height =>
    dsimp only [after, next, resizeDisplay]
    split <;> exact ⟨rfl, rfl, rfl, rfl, rfl, rfl⟩
  | drain command now =>
    cases command with
    | startShutdown => exact absurd rfl (staying now)
    | terminate => exact ⟨rfl, rfl, rfl, rfl, rfl, rfl⟩
    | resize width height =>
      dsimp only [after, next, drainCommand]
      split <;> exact ⟨rfl, rfl, rfl, rfl, rfl, rfl⟩
    | input bytes =>
      dsimp only [after, next, drainCommand, predictInput]
      split
      · exact ⟨rfl, rfl, rfl, rfl, rfl, rfl⟩
      · split
        · exact ⟨rfl, rfl, rfl, rfl, rfl, rfl⟩
        · split <;> exact ⟨rfl, rfl, rfl, rfl, rfl, rfl⟩

end SessionLoop

theorem SspSender.tick_lastAck {S : Type} [DecidableEq S] [SspSentState S] (zlib : Zlib) (sender : SspSender S)
    (now rto sendInterval mtu : Nat) (fragmenter : Fragmenter) :
    ∀ ack ∈ (sender.tick zlib now rto sendInterval mtu fragmenter).fragmenter.lastAckSent,
      ack ∈ fragmenter.lastAckSent ∨ ack = sender.ackNum := by
  obtain ⟨-, -, -, ⟨-, same, -⟩ | ⟨base, inst, framed, -, -, after⟩⟩ :=
    sender.tick_due zlib now rto sendInterval mtu fragmenter
  · rw [same]
    exact fun ack member => .inl member
  · rw [after]
    intro ack member
    by_cases counted : FragmentCall.recorded { inst := inst, mtu := mtu } = true
    · rw [Fragmenter.lastAckSent, (Fragmenter.send_recorded zlib fragmenter _ counted).1] at member
      right
      rw [← (sender.prepared_fields now rto).2, ← framed.ack]
      exact (Option.some.inj member).symm
    · rw [Fragmenter.send_refused zlib fragmenter _ (Bool.eq_false_iff.mpr counted)] at member
      exact .inl member

namespace WiredLoop

variable {D F : Type}

/-- What a datagram, a fragment or a step past them does to the loop within. -/
inductive Acted [MoshDisplay D] (code : WireCode F) (wired : WiredLoop D F) : WireAction → SessionLoop D → Prop
  | dropped {bytes : Bytes} {addresses : Nat → Address} {now sampled : Nat} :
      Acted code wired (.datagram bytes addresses now sampled) wired.loop
  | handled {bytes : Bytes} {addresses : Nat → Address} {now sampled : Nat} {fragment : Fragment}
      {inst : TransportInstruction}
      (carried : fragmentOf code wired.opener (.datagram bytes addresses now sampled) = some fragment)
      (completed : (wired.assembly.addFragment code.zlib fragment).1 = some inst) :
      Acted code wired (.datagram bytes addresses now sampled) (wired.loop.handleInstruction addresses inst now)
  | sent {fragment : Fragment} {now stamped : Nat} {fatal : Option String}
      (exhausted : fatal = wired.loop.fatal ∨ fatal = some "mosh: session exhausted its key budget") :
      Acted code wired (.send fragment now stamped) { wired.loop with fatal := fatal }
  | inner (action : SessionAction) : Acted code wired (.inner action) (wired.loop.next code.zlib action)

theorem next_acted [MoshDisplay D] (code : WireCode F) (wired : WiredLoop D F) (action : WireAction) :
    Acted code wired action (wired.next code action).loop := by
  cases action with
  | inner action => exact .inner action
  | send fragment now stamped =>
    unfold next sendFragment
    dsimp only
    split
    · exact .sent (.inl rfl)
    · exact .sent (.inr rfl)
  | datagram bytes addresses now sampled =>
    unfold next handleDatagram
    dsimp only
    cases opened : wired.opener.openDatagram code.decrypt bytes with
    | error e => exact .dropped
    | ok datagram =>
      obtain ⟨seq, header, payload⟩ := datagram
      dsimp only
      cases parsed : Fragment.parse payload with
      | error e => exact .dropped
      | ok fragment =>
        dsimp only
        have carried : fragmentOf code wired.opener (.datagram bytes addresses now sampled) = some fragment := by
          simp only [fragmentOf, opened, Except.toOption, Option.bind_eq_bind, Option.bind_some, parsed]
        cases completed : wired.assembly.addFragment code.zlib fragment with
        | mk whole assembly =>
          cases whole with
          | none => exact .dropped
          | some inst => exact .handled carried (congrArg Prod.fst completed)

end WiredLoop

namespace SessionLoop

variable {D : Type}

/-- What the embedder was told: the screens in order, none past the newest state, and then the ending. The
    acks framed are of states that came. -/
structure Shows (loop : SessionLoop D) (shown : List UInt64) (ending : List SessionEvent) : Prop where
  linked : loop.Linked
  framed : ∀ ack ∈ loop.fragmenter.lastAckSent, ack ≤ loop.receiver.latest.num
  events : loop.events = shown.map .screenChanged ++ ending
  ascending : shown.Pairwise (· < ·)
  newest : ∀ num ∈ shown, num ≤ loop.receiver.latest.num

theorem Shows.quit_received {loop : SessionLoop D} {shown : List UInt64} {ending : List SessionEvent}
    (shows : Shows loop shown ending) (framed : loop.fragmenter.lastAckSent = some shutdownNum) :
    loop.receiver.latest.num = shutdownNum := by
  have top : loop.receiver.latest.num ≤ shutdownNum :=
    UInt64.le_iff_toNat_le.mpr (Nat.le_of_lt_succ (UInt64.toNat_lt _))
  exact UInt64.le_antisymm top (shows.framed _ framed)

theorem Shows.announce {loop after : SessionLoop D} {shown : List UInt64} (shows : Shows loop shown [])
    (announced : Announced loop after) (linked : after.Linked)
    (framed : ∀ ack ∈ after.fragmenter.lastAckSent, ack ≤ after.receiver.latest.num) :
    ∃ shown, Shows after shown [] := by
  have events := shows.events
  rw [List.append_nil] at events
  cases announced with
  | silent same grown =>
    refine ⟨shown, linked, framed, ?_, shows.ascending, fun num member => ?_⟩
    · rw [same, events, List.append_nil]
    · exact UInt64.le_trans (shows.newest num member) grown
  | @screen num more newer newest =>
    refine ⟨shown ++ [num], linked, framed, ?_, ?_, ?_⟩
    · rw [more, events, List.map_append, List.append_nil]
      rfl
    · refine List.pairwise_append.mpr ⟨shows.ascending, List.pairwise_singleton _ _, ?_⟩
      intro earlier member last singleton
      rw [List.mem_singleton.mp singleton]
      exact UInt64.lt_of_le_of_lt (shows.newest earlier member) newer
    · rw [newest]
      intro earlier member
      rcases List.mem_append.mp member with old | new
      · exact UInt64.le_trans (shows.newest earlier old) (UInt64.le_of_lt newer)
      · exact UInt64.le_of_eq (List.mem_singleton.mp new)

theorem Shows.of_fields {loop after : SessionLoop D} {shown : List UInt64} {ending : List SessionEvent}
    (shows : Shows loop shown ending) (receiver : after.receiver = loop.receiver)
    (acked : after.sender.ackNum = loop.sender.ackNum) (events : after.events = loop.events)
    (fragmenter : after.fragmenter = loop.fragmenter) : Shows after shown ending := by
  obtain ⟨linked, framed, told, ascending, newest⟩ := shows
  refine ⟨⟨?_, ?_⟩, ?_, events.trans told, ascending, ?_⟩
  · rw [receiver]
    exact linked.ascending
  · rw [acked, receiver]
    exact linked.acked
  · rw [fragmenter, receiver]
    exact framed
  · rw [receiver]
    exact newest

variable [MoshDisplay D]

theorem Shows.quiet {loop : SessionLoop D} {shown : List UInt64} {ending : List SessionEvent}
    (shows : Shows loop shown ending) (zlib : Zlib) {action : SessionAction} (quiet : Quiet action) :
    Shows (loop.next zlib action) shown ending := by
  obtain ⟨receiver, -, -, acked⟩ := loop.next_frame zlib action quiet.1
  obtain ⟨events, -, fragmenter, -⟩ := loop.next_quiet zlib quiet
  exact shows.of_fields receiver acked events fragmenter

theorem Shows.tick {loop : SessionLoop D} {shown : List UInt64} (shows : Shows loop shown []) (zlib : Zlib)
    (now rto sendInterval mtu : Nat) : Shows (loop.next zlib (.tick now rto sendInterval mtu)) shown [] := by
  obtain ⟨-, -, acked, -⟩ := loop.sender.tick_due zlib now rto sendInterval mtu loop.fragmenter
  refine ⟨⟨shows.linked.ascending, ?_⟩, ?_, shows.events, shows.ascending, shows.newest⟩
  · exact (acked.trans (loop.sender.prepared_fields now rto).2).trans shows.linked.acked
  · intro ack member
    rcases loop.sender.tick_lastAck zlib now rto sendInterval mtu loop.fragmenter ack member with old | same
    · exact shows.framed ack old
    · rw [same, shows.linked.acked]
      exact UInt64.le_refl _

theorem Shows.handle {loop : SessionLoop D} {shown : List UInt64} (shows : Shows loop shown [])
    (addresses : Nat → Address) (inst : TransportInstruction) (now : Nat) :
    ∃ shown, Shows (loop.handleInstruction addresses inst now) shown [] := by
  obtain ⟨announced, -, fragmenter⟩ := handleInstruction_announced shows.linked addresses inst now
  refine shows.announce announced (shows.linked.handle addresses inst now) ?_
  rw [fragmenter]
  intro ack member
  refine UInt64.le_trans (shows.framed ack member) ?_
  cases announced with
  | silent events grown => exact grown
  | screen events newer newest =>
    rw [newest]
    exact UInt64.le_of_lt newer

end SessionLoop

namespace HandleCall

theorem quiet (call : HandleCall) : SessionLoop.Quiet call.action := by
  cases call <;> simp [SessionLoop.Quiet, action]

end HandleCall

namespace RunLoop

variable {D F : Type}

/-- Why a loop that told of its end came to it. -/
inductive Cause (run : RunLoop D F) : Bool → Option String → Prop
  | failed {error : String} (fatal : run.wired.loop.fatal = some error) : Cause run false (some error)
  | quit (received : run.wired.loop.receiver.latest.num = shutdownNum)
      (framed : run.wired.loop.fragmenter.lastAckSent = some shutdownNum) : Cause run true none
  | acknowledged (started : run.wired.loop.sender.shutdownInProgress = true)
      (acknowledged : run.wired.loop.sender.shutdownAcknowledged = true) : Cause run true none
  | abandoned (started : run.wired.loop.sender.shutdownInProgress = true)
      (unframed : run.wired.loop.fragmenter.lastAckSent ≠ some shutdownNum)
      (unacknowledged : run.wired.loop.sender.shutdownAcknowledged = false)
      (timedOut : run.wired.loop.sender.shutdownAckTimedOut run.nowMs = true) : Cause run false none

theorem Cause.of_fields {run after : RunLoop D F} {clean : Bool} {error : Option String} (cause : Cause run clean error)
    (fatal : after.wired.loop.fatal = run.wired.loop.fatal)
    (receiver : after.wired.loop.receiver = run.wired.loop.receiver)
    (fragmenter : after.wired.loop.fragmenter = run.wired.loop.fragmenter)
    (queue : after.wired.loop.sender.queue = run.wired.loop.sender.queue)
    (shutdown : after.wired.loop.shutdownFields = run.wired.loop.shutdownFields)
    (nowMs : after.nowMs = run.nowMs) : Cause after clean error := by
  simp only [SessionLoop.shutdownFields, Prod.mk.injEq] at shutdown
  obtain ⟨start, shutdown, tries⟩ := shutdown
  cases cause with
  | failed failure => exact .failed (fatal.trans failure)
  | quit received framed => exact .quit (by rw [receiver, received]) (by rw [fragmenter, framed])
  | acknowledged started acknowledged =>
    refine .acknowledged (shutdown.trans started) ?_
    rw [SspSender.shutdownAcknowledged, queue]
    exact acknowledged
  | abandoned started unframed unacknowledged timedOut =>
    refine .abandoned (shutdown.trans started) (by rwa [fragmenter]) ?_ ?_
    · rw [SspSender.shutdownAcknowledged, queue]
      exact unacknowledged
    · rw [SspSender.shutdownAckTimedOut, shutdown, tries, start, nowMs]
      exact timedOut

theorem Cause.clean_iff {run : RunLoop D F} {clean : Bool} (cause : Cause run clean none) :
    clean = true ↔ run.wired.loop.fragmenter.lastAckSent = some shutdownNum ∨
      run.wired.loop.sender.shutdownAcknowledged = true := by
  cases cause with
  | quit received framed => exact iff_of_true rfl (.inl framed)
  | acknowledged started acknowledged => exact iff_of_true rfl (.inr acknowledged)
  | abandoned started unframed unacknowledged timedOut =>
    apply iff_of_false Bool.false_ne_true
    rw [unacknowledged]
    exact not_or_intro unframed Bool.false_ne_true

/-- Where a run stands: going on, terminated on command, or ended with the cause told. -/
inductive Told (trace : List RunAction) (run : RunLoop D F) : Prop
  | going {shown : List UInt64} (shows : run.wired.loop.Shows shown []) (going : run.phase ≠ .finished)
      (staying : .command .terminate ∉ trace) : Told trace run
  | terminated {shown : List UInt64} (shows : run.wired.loop.Shows shown []) (finished : run.phase = .finished)
      (terminated : .command .terminate ∈ trace) : Told trace run
  | ended {shown : List UInt64} {clean : Bool} {error : Option String}
      (shows : run.wired.loop.Shows shown [.ended clean error]) (finished : run.phase = .finished)
      (cause : Cause run clean error) (staying : .command .terminate ∉ trace) : Told trace run

theorem drain_quiet {command : SessionCommand} (now : Nat) (going : command ≠ .startShutdown) :
    SessionLoop.Quiet (.drain command now) := by
  simp [SessionLoop.Quiet, going]

theorem nextSocket_going (older : List Nat) (drained : Nat) : nextSocket older drained ≠ .finished := by
  cases older <;> exact fun same => by cases same

theorem readOn_going (wait : Option Nat) (older : List Nat) (drained : Nat) :
    readOn wait older drained ≠ .finished := by
  unfold readOn
  split
  · exact nextSocket_going _ _
  · split
    · exact nextSocket_going _ _
    · exact fun same => by cases same

theorem passOn_going (wait : Option Nat) (older : List Nat) (drained : Nat) :
    passOn wait older drained ≠ .finished := by
  unfold passOn
  split <;> exact nextSocket_going _ _

theorem Cause.ends {trace : List RunAction} {run after : RunLoop D F} {shown : List UInt64} {clean : Bool}
    {error : Option String} (cause : Cause run clean error) (shows : run.wired.loop.Shows shown [])
    (staying : .command .terminate ∉ trace) (wired : after.wired = run.wired) (nowMs : after.nowMs = run.nowMs) :
    Told trace (after.ended clean error) := by
  have events := shows.events
  rw [List.append_nil] at events
  have ending : (after.ended clean error).wired.loop.Shows shown [.ended clean error] := by
    refine ⟨?_, ?_, ?_, shows.ascending, ?_⟩
    · dsimp only [RunLoop.ended]
      rw [wired]
      exact ⟨shows.linked.ascending, shows.linked.acked⟩
    · dsimp only [RunLoop.ended]
      rw [wired]
      exact shows.framed
    · dsimp only [RunLoop.ended]
      rw [wired, events]
    · dsimp only [RunLoop.ended]
      rw [wired]
      exact shows.newest
  refine .ended ending rfl ?_ staying
  apply cause.of_fields
  · rw [← wired]
    rfl
  · rw [← wired]
    rfl
  · rw [← wired]
    rfl
  · rw [← wired]
    rfl
  · rw [← wired]
    rfl
  · exact nowMs

variable [MoshDisplay D]

theorem shows_drain {loop : SessionLoop D} {shown : List UInt64} (shows : loop.Shows shown []) (zlib : Zlib)
    (command : SessionCommand) (now : Nat) : (loop.next zlib (.drain command now)).Shows shown [] := by
  by_cases start : command = .startShutdown
  · subst start
    exact shows.of_fields rfl (loop.next_frame zlib (.drain .startShutdown now) (fun _ _ _ same => by cases same)).2.2.2
      rfl rfl
  · exact shows.quiet zlib (drain_quiet now start)

theorem shows_acted {code : WireCode F} {wired : WiredLoop D F} {shown : List UInt64} {action : WireAction}
    {loop : SessionLoop D} (shows : wired.loop.Shows shown []) (outer : ∀ inner, action ≠ .inner inner)
    (acted : WiredLoop.Acted code wired action loop) : ∃ shown, loop.Shows shown [] := by
  cases acted with
  | dropped => exact ⟨shown, shows⟩
  | handled carried completed => exact shows.handle _ _ _
  | sent exhausted => exact ⟨shown, shows.of_fields rfl rfl rfl rfl⟩
  | inner action => exact absurd rfl (outer action)

theorem Cause.called {code : LoopCode F} {run : RunLoop D F} {clean : Bool} {error : Option String}
    (cause : Cause run clean error) (call : HandleCall) :
    Cause { run with wired := run.wired.next code.toWireCode (.inner call.action) } clean error := by
  obtain ⟨-, shutdown, fragmenter, fatal, queue, -⟩ := run.wired.loop.next_quiet code.zlib call.quiet
  exact cause.of_fields fatal (run.wired.loop.next_frame code.zlib call.action call.quiet.1).1 fragmenter queue
    shutdown rfl

theorem Told.step {code : LoopCode F} {trace : List RunAction} {run after : RunLoop D F} {action : RunAction}
    (told : Told trace run) (begun : run.Begun) (stepped : Stepped code run action after) :
    Told (trace ++ [action]) after := by
  have snoc : ∀ {action : RunAction}, .command .terminate ∉ trace → action ≠ .command .terminate →
      .command .terminate ∉ trace ++ [action] := by
    intro action staying other member
    rcases List.mem_append.mp member with old | new
    · exact staying old
    · exact other (List.mem_singleton.mp new).symm
  have standing : ∀ {phase : Phase}, run.phase = phase → phase ≠ .finished →
      ∃ shown, run.wired.loop.Shows shown [] ∧ .command .terminate ∉ trace := by
    intro phase standing going
    cases told with
    | @going shown shows _ staying => exact ⟨shown, shows, staying⟩
    | terminated shows finished terminated => exact absurd (standing.symm.trans finished) going
    | ended shows finished cause staying => exact absurd (standing.symm.trans finished) going
  cases stepped with
  | woke waking forward =>
    obtain ⟨shown, shows, staying⟩ := standing waking (fun same => by cases same)
    exact .going shows (fun same => by cases same) (snoc staying (fun same => by cases same))
  | terminated draining =>
    obtain ⟨shown, shows, -⟩ := standing draining (fun same => by cases same)
    exact .terminated shows rfl (List.mem_append_right _ (List.mem_singleton_self _))
  | @commanded now command draining continues =>
    obtain ⟨shown, shows, staying⟩ := standing draining (fun same => by cases same)
    refine .going (shows_drain shows code.zlib command now) ?_ (snoc staying ?_)
    · dsimp only
      rw [draining]
      exact fun same => by cases same
    · exact fun same => continues (by cases same; rfl)
  | failed draining fatal =>
    obtain ⟨shown, shows, staying⟩ := standing draining (fun same => by cases same)
    exact (Cause.failed fatal).ends shows (snoc staying (fun same => by cases same)) rfl rfl
  | @ticked now out draining sound output =>
    obtain ⟨shown, shows, staying⟩ := standing draining (fun same => by cases same)
    exact .going (shows.tick code.zlib _ _ _ _) (fun same => by cases same)
      (snoc staying (fun same => by cases same))
  | @sent top now stamped mtu oversize fragment out sending forward later shrunk =>
    obtain ⟨shown, shows, staying⟩ := standing sending (fun same => by cases same)
    obtain ⟨shown, shows⟩ := shows_acted shows (fun inner same => by cases same)
      (run.wired.next_acted code.toWireCode (.send fragment now stamped))
    exact .going shows (fun same => by cases same) (snoc staying (fun same => by cases same))
  | @quit now bound sending acknowledged =>
    obtain ⟨shown, shows, staying⟩ := standing sending (fun same => by cases same)
    obtain ⟨wired, -, -, -, nowMs⟩ := run.settled_frame now bound
    have framed : run.wired.loop.fragmenter.lastAckSent = some shutdownNum := of_decide_eq_true acknowledged
    exact (Cause.quit (shows.quit_received framed) framed).ends shows (snoc staying (fun same => by cases same)) wired nowMs
  | @shutDown now bound sending talking through =>
    obtain ⟨shown, shows, staying⟩ := standing sending (fun same => by cases same)
    obtain ⟨wired, -, -, -, nowMs⟩ := run.settled_frame now bound
    unfold Begun at begun
    rw [sending] at begun
    obtain ⟨started, reason⟩ := through
    have cause : Cause run run.wired.loop.sender.shutdownAcknowledged none := by
      cases acked : run.wired.loop.sender.shutdownAcknowledged with
      | true => exact .acknowledged started acked
      | false =>
        have timedOut := reason.resolve_left (by rw [acked]; exact Bool.false_ne_true)
        rw [begun] at timedOut
        exact .abandoned started (of_decide_eq_false talking) acked timedOut
    exact cause.ends shows (snoc staying (fun same => by cases same)) wired nowMs
  | @waited now wait bound sending talking going least most =>
    obtain ⟨shown, shows, staying⟩ := standing sending (fun same => by cases same)
    have quiet : SessionLoop.Quiet (.waitTime now (run.rto code) (run.sendInterval code)) := by
      simp [SessionLoop.Quiet]
    exact .going (shows.quiet code.zlib quiet) (fun same => by cases same)
      (snoc staying (fun same => by cases same))
  | @received wait older drained now sampled bytes addresses receiving forward later =>
    obtain ⟨shown, shows, staying⟩ := standing receiving (fun same => by cases same)
    obtain ⟨shown, shows⟩ := shows_acted shows (fun inner same => by cases same)
      (run.wired.next_acted code.toWireCode (.datagram bytes addresses now sampled))
    exact .going shows (readOn_going _ _ _) (snoc staying (fun same => by cases same))
  | passed receiving =>
    obtain ⟨shown, shows, staying⟩ := standing receiving (fun same => by cases same)
    exact .going shows (passOn_going _ _ _) (snoc staying (fun same => by cases same))
  | called call =>
    cases told with
    | going shows going staying =>
      exact .going (shows.quiet code.zlib call.quiet) going (snoc staying (fun same => by cases same))
    | terminated shows finished terminated =>
      exact .terminated (shows.quiet code.zlib call.quiet) finished (List.mem_append_left _ terminated)
    | ended shows finished cause staying =>
      exact .ended (shows.quiet code.zlib call.quiet) finished (cause.called call)
        (snoc staying (fun same => by cases same))

variable {code : LoopCode F} {display : D} {cols rows : Int32} {predictionOn : Bool} {family : SocketFamily}
  {hopIntervalMs : Nat} {trace : List RunAction} {run : RunLoop D F}

theorem run_told
    (reached : (runMachine code (start code display cols rows predictionOn family hopIntervalMs)).Run trace run) :
    Told trace run := by
  refine reached.invariant (motive := fun trace run => Told trace run) ?_ ?_
  · have silent : (SessionLoop.start display cols rows predictionOn).Shows [] [] :=
      ⟨SessionLoop.Linked.start display cols rows predictionOn, (fun ack member => by cases member), rfl, .nil,
        fun num member => by cases member⟩
    exact .going silent (fun same => by cases same) List.not_mem_nil
  · intro trace run action before told allowed
    exact told.step (reachable_ported ⟨trace, before⟩).1.begun (next_stepped code run action allowed)

omit [MoshDisplay D] in
theorem Told.standing (told : Told trace run) :
    ∃ shown ending, run.wired.loop.Shows shown ending ∧
      (ending = [] ∧ (run.phase = .finished ↔ .command .terminate ∈ trace) ∨
        ∃ clean error, ending = [.ended clean error] ∧ run.phase = .finished ∧ .command .terminate ∉ trace ∧
          Cause run clean error) := by
  cases told with
  | going shows going staying => exact ⟨_, _, shows, .inl ⟨rfl, fun same => absurd same going, fun sent => absurd sent staying⟩⟩
  | terminated shows finished terminated => exact ⟨_, _, shows, .inl ⟨rfl, fun _ => terminated, fun _ => finished⟩⟩
  | ended shows finished cause staying => exact ⟨_, _, shows, .inr ⟨_, _, rfl, finished, staying, cause⟩⟩

/-- A session announces each screen once and in order, then at most one end, which nothing follows and which
    is silent only on a terminate; an end without an error is clean just where the peer's shutdown is acked or
    the session's own is. -/
theorem run_ends (code : LoopCode F) (display : D) (cols rows : Int32) (predictionOn : Bool)
    (family : SocketFamily) (hopIntervalMs : Nat) (trace : List RunAction) (run : RunLoop D F)
    (reached : (runMachine code (start code display cols rows predictionOn family hopIntervalMs)).Run trace run) :
    ∃ (shown : List UInt64) (ending : List SessionEvent),
      run.wired.loop.events = shown.map .screenChanged ++ ending ∧ shown.Pairwise (· < ·) ∧
      (∀ num ∈ shown, num ≤ run.wired.loop.receiver.latest.num) ∧
      (ending = [] ∧ (run.phase = .finished ↔ .command .terminate ∈ trace) ∨
        ∃ clean error, ending = [.ended clean error] ∧ run.phase = .finished ∧ .command .terminate ∉ trace ∧
          Cause run clean error ∧
          (error = none → (clean = true ↔ run.wired.loop.fragmenter.lastAckSent = some shutdownNum ∨
            run.wired.loop.sender.shutdownAcknowledged = true)) ∧
          (run.wired.loop.fragmenter.lastAckSent = some shutdownNum →
            run.wired.loop.receiver.latest.num = shutdownNum)) := by
  obtain ⟨shown, ending, shows, going | ⟨clean, error, told, finished, staying, cause⟩⟩ := (run_told reached).standing
  · exact ⟨shown, ending, shows.events, shows.ascending, shows.newest, .inl going⟩
  · refine ⟨shown, ending, shows.events, shows.ascending, shows.newest, .inr ?_⟩
    refine ⟨clean, error, told, finished, staying, cause, ?_, shows.quit_received⟩
    intro unfailing
    subst unfailing
    exact cause.clean_iff

/-- A shutdown that nobody acknowledges, given up ten seconds on. -/
def abandonedActions : List RunAction :=
  [.wake 0, .command .startShutdown, .drained, .settle true, .nothing, .wake 10000, .drained,
    .send 10000 10000 false, .settle true]

def abandonedRun : RunLoop PlainScreen Nat :=
  abandonedActions.foldl (runMachine sampleCode sampleStart).next sampleStart

theorem abandonedRun_run : (runMachine sampleCode sampleStart).Run abandonedActions abandonedRun :=
  Machine.Run.start.follow (by decide +kernel)

theorem run_ends_abandoned : abandonedRun.wired.loop.events = [.ended false none] ∧
    abandonedRun.phase = .finished ∧ Cause abandonedRun false none := by
  have told : abandonedRun.wired.loop.events = [.ended false none] := by decide +kernel
  obtain ⟨shown, ending, events, -, -, standing⟩ := run_ends sampleCode (MoshDisplay.newBlank 80 24) 80 24 true .v4
    10000 abandonedActions abandonedRun abandonedRun_run
  rw [told] at events
  cases shown with
  | cons num shown => cases events
  | nil =>
    rw [List.map_nil, List.nil_append] at events
    subst events
    obtain ⟨unended, -⟩ | ⟨clean, error, same, finished, -, cause, -⟩ := standing
    · cases unended
    · cases same
      exact ⟨told, finished, cause⟩

end RunLoop

end MoshModel
