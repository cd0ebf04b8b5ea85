import MoshClient.Session.Delivery
import MoshClient.Session.DisplayRuns

namespace MoshModel

open Transition

namespace HostStreamState

theorem placed_events (addresses : Nat → Address) (events : List HostEvent) (pushed : Nat) :
    (placed addresses events pushed).map Prod.snd = events := by
  unfold placed
  rw [List.map_map]
  exact List.zipIdx_map_fst pushed events

theorem pushedEvents_nil : pushedEvents [] = [] := by decide +kernel

theorem applyString_iter {addresses : Nat → Address} {state after : HostStreamState} {diff : Bytes}
    (applied : applyString addresses state diff = .ok after) :
    after.log.iter = state.log.iter ++ pushedEvents diff := by
  unfold EventLog.iter
  rw [applyString_node applied, Chain.items_extend, List.reverse_append, List.reverse_reverse, allocated,
    placed_events]

end HostStreamState

section Screens

variable {T : Type} {apply : T → HostEvent → T} {screens : UInt64 → T}

/-- An instruction of a server whose screen by number is known: what it carries takes the screen that it names
    to its own. `apply` is what any terminal of that server's kind does with an event. -/
structure Renders (apply : T → HostEvent → T) (screens : UInt64 → T) (inst : TransportInstruction) : Prop where
  version : inst.protocolVersion = moshProtocolVersion
  decodes : (HostMessage.decode inst.diff).toOption.isSome = true
  screen : (HostStreamState.pushedEvents inst.diff).foldl apply (screens inst.oldNum) = screens inst.newNum

instance [DecidableEq T] (inst : TransportInstruction) : Decidable (Renders apply screens inst) :=
  decidable_of_iff (inst.protocolVersion = moshProtocolVersion ∧
    (HostMessage.decode inst.diff).toOption.isSome = true ∧
      (HostStreamState.pushedEvents inst.diff).foldl apply (screens inst.oldNum) = screens inst.newNum)
    ⟨fun ⟨version, decodes, screen⟩ => ⟨version, decodes, screen⟩,
      fun renders => ⟨renders.version, renders.decodes, renders.screen⟩⟩

def Painted (apply : T → HostEvent → T) (screens : UInt64 → T) (s : TimestampedState HostStreamState) : Prop :=
  s.state.log.iter.foldl apply (screens 0) = screens s.num

theorem Renders.applies {inst : TransportInstruction} (renders : Renders apply screens inst)
    (addresses : Nat → Address) (state : HostStreamState) :
    ∃ after, (if inst.diff = [] then .ok state else HostStreamState.applyString addresses state inst.diff) =
      .ok after := by
  by_cases empty : inst.diff = []
  · exact ⟨state, if_pos empty⟩
  · have decodes := renders.decodes
    rw [if_neg empty, HostStreamState.applyString]
    cases decoded : HostMessage.decode inst.diff with
    | error e =>
      rw [decoded] at decodes
      cases decodes
    | ok message => exact ⟨_, rfl⟩

/-- On top of the screen that the instruction names, its diff paints its own. -/
theorem Renders.paints {inst : TransportInstruction} (renders : Renders apply screens inst)
    {addresses : Nat → Address} {reference : TimestampedState HostStreamState} {state : HostStreamState}
    (painted : Painted apply screens reference) (named : reference.num = inst.oldNum)
    (applied : (if inst.diff = [] then .ok reference.state
      else HostStreamState.applyString addresses reference.state inst.diff) = .ok state) :
    state.log.iter.foldl apply (screens 0) = screens inst.newNum := by
  have events : state.log.iter = reference.state.log.iter ++ HostStreamState.pushedEvents inst.diff := by
    by_cases empty : inst.diff = []
    · rw [if_pos empty] at applied
      rw [← Except.ok.inj applied, empty, HostStreamState.pushedEvents_nil, List.append_nil]
    · rw [if_neg empty] at applied
      exact HostStreamState.applyString_iter applied
  rw [events, List.foldl_append, show reference.state.log.iter.foldl apply (screens 0) = screens inst.oldNum from
    named ▸ painted, renders.screen]

theorem Renders.received {inst : TransportInstruction} (renders : Renders apply screens inst)
    {receiver : SspReceiver HostStreamState} (painted : ∀ s ∈ receiver.received, Painted apply screens s)
    (addresses : Nat → Address) (now : Nat) :
    ∀ s ∈ (receiver.processInstruction (HostStreamState.applyString addresses) inst now).2.received,
      Painted apply screens s := by
  have cases := SspReceiver.processInstruction_cases (HostStreamState.applyString addresses) receiver inst now
  generalize receiver.processInstruction (HostStreamState.applyString addresses) inst now = outcome at *
  obtain ⟨result, after⟩ := outcome
  intro s member
  cases cases with
  | refused unculled uninserted => exact painted s member
  | dropped culled uninserted queue =>
    dsimp only at member
    rw [queue, SspReceiver.mem_kept] at member
    exact painted s member.1
  | @inserted reference state base after culled queue held named applied insertion =>
    subst insertion
    rw [queue, SspReceiver.mem_kept] at held
    rcases (SspReceiver.mem_insertState _ _ _ _).mp member with rfl | old
    · exact renders.paints (painted reference held.1) named applied
    · rw [queue, SspReceiver.mem_kept] at old
      exact painted s old.1

end Screens

namespace SessionLoop

variable {D : Type} [MoshDisplay D]

theorem handleInstruction_fatal (loop : SessionLoop D) (addresses : Nat → Address) (inst : TransportInstruction)
    (now : Nat) (version : inst.protocolVersion = moshProtocolVersion)
    (sound : ∀ error, (loop.receiver.processInstruction (HostStreamState.applyString addresses) inst now).1 ≠
      .error error) :
    (loop.handleInstruction addresses inst now).fatal = loop.fatal := by
  unfold handleInstruction
  rw [if_neg (not_not.mpr version)]
  dsimp only
  rw [show (loop.acknowledge inst.ackNum).receiver = loop.receiver from rfl]
  generalize loop.receiver.processInstruction (HostStreamState.applyString addresses) inst now = outcome at *
  obtain ⟨result, receiver⟩ := outcome
  cases result with
  | error e => exact absurd rfl (sound e)
  | ok outcome =>
    cases outcome with
    | latest num hadDiff state => exact (showLatest_frame _ num).1
    | outOfOrder _ _ | duplicate | noReference | quenched => rfl

theorem next_fatal (zlib : Zlib) (loop : SessionLoop D) {action : SessionAction}
    (unhandled : ∀ inst addresses now, action ≠ .handle inst addresses now) :
    (loop.next zlib action).fatal = loop.fatal := by
  cases action with
  | handle inst addresses now => exact absurd rfl (unhandled inst addresses now)
  | tick _ _ _ _ | waitTime _ _ _ | takeHostBytes | setHostBytesCapture _ | setPrediction _ => rfl
  | resizeDisplay width height =>
    dsimp only [next, resizeDisplay]
    split <;> rfl
  | drain command now =>
    by_cases shut : command = .startShutdown
    · rw [shut]
      rfl
    · have quiet : Quiet (.drain command now) := by
        refine ⟨unhandled, ?_, ?_⟩
        · intro _ _ _ _ same
          cases same
        · intro time same
          cases same
          exact shut rfl
      exact (loop.next_quiet zlib quiet).2.2.2.1

end SessionLoop

namespace RunLoop

variable {D F : Type}

/-- The nodes for what a step takes in lie where nothing live does. -/
def Allocates (code : LoopCode F) (run : RunLoop D F) : RunAction → Prop
  | .receive bytes addresses now sampled =>
    ∀ fragment ∈ WiredLoop.fragmentOf code.toWireCode run.wired.opener (.datagram bytes addresses now sampled),
      ∀ inst ∈ (run.wired.assembly.addFragment code.zlib fragment).1,
        run.wired.loop.freshly (.handle inst addresses now)
  | _ => True

instance (code : LoopCode F) (run : RunLoop D F) (action : RunAction) : Decidable (run.Allocates code action) :=
  match action with
  | .receive bytes addresses now sampled =>
    inferInstanceAs (Decidable (∀ fragment ∈ WiredLoop.fragmentOf code.toWireCode run.wired.opener
      (.datagram bytes addresses now sampled), ∀ inst ∈ (run.wired.assembly.addFragment code.zlib fragment).1,
        run.wired.loop.freshly (.handle inst addresses now)))
  | .wake _ | .command _ | .drained | .send _ _ _ | .settle _ | .nothing | .call _ => inferInstanceAs (Decidable True)

theorem Allocates.fresh [MoshDisplay D] {code : LoopCode F} {run : RunLoop D F} {bytes : Bytes}
    {addresses : Nat → Address} {now sampled : Nat} {inst : TransportInstruction}
    (allocates : run.Allocates code (.receive bytes addresses now sampled))
    (takes : Takes code run (.receive bytes addresses now sampled) inst) :
    run.wired.loop.freshly (.handle inst addresses now) := by
  obtain ⟨_, _, _, _, fragment, same, carried, completed⟩ := takes
  cases same
  exact allocates fragment carried inst completed

end RunLoop

namespace Exchange

variable {D F T : Type} {apply : T → HostEvent → T} {screens : UInt64 → T}

/-- The peer says only what renders its screens, and the client's allocator gives out no node twice. -/
def Serves (code : LoopCode F) (apply : T → HostEvent → T) (screens : UInt64 → T) (exchange : Exchange D F) :
    ExchangeAction → Prop
  | .client action => exchange.client.Allocates code action
  | .say inst _ _ => Renders apply screens inst
  | _ => True

instance [DecidableEq T] (code : LoopCode F) (exchange : Exchange D F) (action : ExchangeAction) :
    Decidable (exchange.Serves code apply screens action) :=
  match action with
  | .client action => inferInstanceAs (Decidable (exchange.client.Allocates code action))
  | .say inst _ _ => inferInstanceAs (Decidable (Renders apply screens inst))
  | .arrive _ _ | .echo _ => inferInstanceAs (Decidable True)

def Healthy (loop : SessionLoop D) : Prop :=
  loop.fatal = none ∨ loop.fatal = some "mosh: session exhausted its key budget"

structure Mirrors (apply : T → HostEvent → T) (screens : UInt64 → T) (exchange : Exchange D F) : Prop where
  showing : exchange.client.wired.loop.Showing
  painted : ∀ s ∈ exchange.client.wired.loop.receiver.received, Painted apply screens s
  renders : ∀ sending ∈ exchange.peer.said, Renders apply screens sending.call.inst
  healthy : Healthy exchange.client.wired.loop

variable [MoshDisplay D] {code : LoopCode F} {exchange : Exchange D F}

theorem Mirrors.client (mirrors : exchange.Mirrors apply screens) (speaks : exchange.Speaks code)
    (faithful : code.zlib.Faithful) {action : RunAction} (allowed : exchange.allowed code (.client action))
    (allocates : exchange.client.Allocates code action) :
    (exchange.next code (.client action)).Mirrors apply screens := by
  obtain ⟨showing, painted, renders, healthy⟩ := mirrors
  have stepped := RunLoop.next_stepped code exchange.client action allowed.1
  suffices after : (exchange.client.next code action).wired.loop.Showing ∧
      (∀ s ∈ (exchange.client.next code action).wired.loop.receiver.received, Painted apply screens s) ∧
      Healthy (exchange.client.next code action).wired.loop from ⟨after.1, after.2.1, renders, after.2.2⟩
  obtain ⟨events, fatal, fails, same⟩ | ⟨bytes, addresses, now, sampled, inst, rfl, takes, handled⟩ |
    ⟨inner, unhandled, next⟩ := stepped.within
  · rw [same]
    refine ⟨⟨showing.ascending, showing.coherent, showing.fed, showing.position⟩, painted, ?_⟩
    rcases fails with rfl | rfl
    · exact healthy
    · exact .inr rfl
  · obtain ⟨sending, said, rfl⟩ := speaks.takes faithful allowed.2.2 takes
    have rendered := renders sending said
    rw [handled]
    refine ⟨showing.handle (allocates.fresh takes), ?_, ?_⟩
    · rw [SessionLoop.handleInstruction_receiver]
      exact rendered.received painted addresses now
    · have sound := SspReceiver.processInstruction_ne_error (HostStreamState.applyString addresses)
        exchange.client.wired.loop.receiver sending.call.inst now rendered.version
        fun s _ _ => rendered.applies addresses s.state
      unfold Healthy
      rw [SessionLoop.handleInstruction_fatal _ _ _ _ rendered.version sound]
      exact healthy
  · obtain ⟨receiver, -⟩ := exchange.client.wired.loop.next_frame code.zlib inner unhandled
    have fresh : exchange.client.wired.loop.freshly inner := by
      cases inner with
      | handle inst addresses now => exact absurd rfl (unhandled inst addresses now)
      | _ => exact True.intro
    rw [next]
    refine ⟨showing.next code.zlib fresh, ?_, ?_⟩
    · rw [receiver]
      exact painted
    · unfold Healthy
      rw [SessionLoop.next_fatal code.zlib _ unhandled]
      exact healthy

end Exchange

def servedMachine {D F T : Type} [MoshDisplay D] (code : LoopCode F) (apply : T → HostEvent → T) (screens : UInt64 → T)
    (first : Exchange D F) : Machine (Exchange D F) ExchangeAction :=
  (exchangeMachine code first).guarded (Exchange.Serves code apply screens)

instance {D F T : Type} [MoshDisplay D] [DecidableEq T] (code : LoopCode F) (apply : T → HostEvent → T)
    (screens : UInt64 → T) (first exchange : Exchange D F) (action : ExchangeAction) :
    Decidable ((servedMachine code apply screens first).allowed exchange action) :=
  inferInstanceAs (Decidable (exchange.allowed code action ∧ exchange.Serves code apply screens action))

namespace Exchange

variable {D F T : Type} [MoshDisplay D] {code : LoopCode F} {apply : T → HostEvent → T} {screens : UInt64 → T}
  {display : D} {cols rows : Int32} {predictionOn : Bool} {family : SocketFamily} {hopIntervalMs peerNow : Nat}
  {trace : List ExchangeAction} {exchange : Exchange D F}

theorem run_mirrors (aead : SoundAead code.encrypt code.decrypt) (faithful : code.zlib.Faithful)
    (run : (servedMachine code apply screens
      (start code display cols rows predictionOn family hopIntervalMs peerNow)).Run trace exchange) :
    exchange.Mirrors apply screens := by
  refine run.invariant (motive := fun _ (exchange : Exchange D F) => exchange.Mirrors apply screens) ?_ ?_
  · refine ⟨.start display cols rows predictionOn, ?_, fun sending member => absurd member List.not_mem_nil, .inl rfl⟩
    intro s member
    rw [List.mem_singleton.mp member]
    exact rfl
  · intro trace exchange action before mirrors allowed
    obtain ⟨_, _, -, -, speaks⟩ := run_refines aead faithful before.unguard
    obtain ⟨allowed, serves⟩ := allowed
    cases action with
    | client action => exact mirrors.client speaks faithful allowed serves
    | arrive bytes now =>
      refine ⟨mirrors.showing, mirrors.painted, ?_, mirrors.healthy⟩
      rw [show ((servedMachine code apply screens _).next exchange (.arrive bytes now)).peer.said =
        exchange.peer.said from Peer.receive_said code.toWireCode exchange.peer bytes now]
      exact mirrors.renders
    | say inst mtu header =>
      refine ⟨mirrors.showing, mirrors.painted, ?_, mirrors.healthy⟩
      intro sending member
      rcases List.mem_append.mp member with old | new
      · exact mirrors.renders sending old
      · rw [List.mem_singleton.mp new, Fragmenter.send_call]
        exact serves
    | echo header => exact ⟨mirrors.showing, mirrors.painted, mirrors.renders, mirrors.healthy⟩

/-- Whatever the network does, every state that the client holds paints the screen that the server has under its
    number, the display among them that of the newest, which is one the server sent; and no error ends the
    session, save the exhausted key. -/
theorem screen_agrees {T : Type} (apply : T → HostEvent → T) (screens : UInt64 → T) (code : LoopCode F)
    (aead : SoundAead code.encrypt code.decrypt) (faithful : code.zlib.Faithful) (display : D) (cols rows : Int32)
    (predictionOn : Bool) (family : SocketFamily) (hopIntervalMs peerNow : Nat) (trace : List ExchangeAction)
    (exchange : Exchange D F)
    (run : (servedMachine code apply screens
      (start code display cols rows predictionOn family hopIntervalMs peerNow)).Run trace exchange) :
    let loop := exchange.client.wired.loop
    (∀ s ∈ loop.receiver.received, s.state.log.iter.foldl apply (screens 0) = screens s.num) ∧
      loop.display.fed.foldl apply (screens 0) = screens loop.receiver.latest.num ∧
      loop.receiver.latest.num ∈ 0 :: exchange.peer.said.map (fun sending => sending.call.inst.newNum) ∧
      ∀ clean error, .ended clean (some error) ∈ loop.events → error = "mosh: session exhausted its key budget" := by
  intro loop
  obtain ⟨showing, painted, -, healthy⟩ := run_mirrors aead faithful run
  refine ⟨painted, ?_, run_learned aead faithful run.unguard _ (SspReceiver.latest_mem _), ?_⟩
  · rw [showing.fed]
    exact painted _ (SspReceiver.latest_mem _)
  · intro clean error ended
    have cause := end_cause run.unguard ended
    cases cause with
    | failed fatal =>
      rcases healthy with sound | exhausted
      · rw [sound] at fatal
        cases fatal
      · rw [exhausted] at fatal
        exact (Option.some.inj fatal).symm

def lastPaint (screen : Bytes) : HostEvent → Bytes
  | .bytes bytes => bytes
  | .resize _ _ => screen

def paintedScreens (num : UInt64) : Bytes :=
  if num = 1 then [97] else if num = 2 then [98] else if num = shutdownNum then [99] else []

def paintStart : Exchange PlainScreen Nat :=
  start sampleCode (MoshDisplay.newBlank 80 24) 80 24 true .v4 portHopIntervalMs 0

def paintSays : List ExchangeAction :=
  [.client (.wake 0), .client .drained, .client (.settle false),
    .say (painting 0 1 0 97) 500 { timestamp := 0, timestampReply := noTimestamp },
    .say (painting 0 2 0 98) 500 { timestamp := 0, timestampReply := noTimestamp }]

def paintSaid : Exchange PlainScreen Nat := paintSays.foldl (next sampleCode) paintStart

def paintArrives : List ExchangeAction :=
  [.client (.receive (paintSaid.inbound.headD []) (fun i => 100 + i) 10 10), .client (.wake 20), .client .drained,
    .client (.settle false), .client (.receive (paintSaid.inbound.tail.headD []) (fun i => 200 + i) 30 30)]

def paintExchange : Exchange PlainScreen Nat := paintArrives.foldl (next sampleCode) paintSaid

theorem paintExchange_run :
    (servedMachine sampleCode lastPaint paintedScreens paintStart).Run (paintSays ++ paintArrives) paintExchange :=
  Machine.Run.start.follow (by decide +kernel)

theorem screen_agrees_branching :
    paintExchange.client.wired.loop.receiver.received.map TimestampedState.num = [0, 1, 2] ∧
      paintExchange.client.wired.loop.display.fed = [.bytes [98]] ∧
      paintExchange.client.wired.loop.display.fed.foldl lastPaint [] =
        paintedScreens paintExchange.client.wired.loop.receiver.latest.num :=
  ⟨by decide +kernel, by decide +kernel, (screen_agrees lastPaint paintedScreens sampleCode sampleCode_aead
    sampleZlib_faithful (MoshDisplay.newBlank 80 24) 80 24 true .v4 10000 0 _ paintExchange paintExchange_run).2.1⟩

/-- A session that ends cleanly without having asked for it shows the last screen of its server. -/
theorem quit_shows_final_screen {T : Type} (apply : T → HostEvent → T) (screens : UInt64 → T) (code : LoopCode F)
    (aead : SoundAead code.encrypt code.decrypt) (faithful : code.zlib.Faithful) (display : D) (cols rows : Int32)
    (predictionOn : Bool) (family : SocketFamily) (hopIntervalMs peerNow : Nat) (trace : List ExchangeAction)
    (exchange : Exchange D F)
    (run : (servedMachine code apply screens
      (start code display cols rows predictionOn family hopIntervalMs peerNow)).Run trace exchange)
    (clean : .ended true none ∈ exchange.client.wired.loop.events)
    (unasked : .client (.command .startShutdown) ∉ trace) :
    exchange.client.wired.loop.display.fed.foldl apply (screens 0) = screens shutdownNum ∧
      exchange.client.wired.loop.fragmenter.lastAckSent = some shutdownNum ∧
      ∃ sending ∈ exchange.peer.said, sending.call.inst.newNum = shutdownNum := by
  obtain ⟨showing, painted, -, -⟩ := run_mirrors aead faithful run
  have asked := shutdown_asked aead faithful run.unguard
  have cause := end_cause run.unguard clean
  cases cause with
  | quit received framed =>
    have newest := painted _ (SspReceiver.latest_mem _)
    have learned := run_learned aead faithful run.unguard _ (SspReceiver.latest_mem _)
    unfold Painted at newest
    rw [received] at newest learned
    refine ⟨?_, framed, ?_⟩
    · rw [showing.fed]
      exact newest
    · rcases List.mem_cons.mp learned with zero | said
      · cases zero
      · exact List.mem_map.mp said
  | acknowledged started acknowledged =>
    rw [started] at asked
    obtain ⟨action, member, asks⟩ := List.any_eq_true.mp asked.symm
    obtain ⟨outer, within, same⟩ := List.mem_filterMap.mp member
    cases outer with
    | client inner =>
      cases same
      cases action with
      | command command =>
        cases command with
        | startShutdown => exact absurd within unasked
        | input _ | resize _ _ | terminate => cases asks
      | _ => cases asks
    | arrive _ _ | say _ _ _ | echo _ => cases same

def quitSays : List ExchangeAction :=
  [.client (.wake 300), .client .drained, .client (.send 300 300 false), .client (.settle false),
    .say (painting 2 shutdownNum 2 99) 500 { timestamp := 0, timestampReply := noTimestamp }]

def quitSaid : Exchange PlainScreen Nat := quitSays.foldl (next sampleCode) paintExchange

def quitEnds : List ExchangeAction :=
  [.client (.receive (quitSaid.inbound.getLastD []) (fun i => 300 + i) 310 310), .client (.wake 600),
    .client .drained, .client (.send 600 600 false), .client (.settle false)]

def quitExchange : Exchange PlainScreen Nat := quitEnds.foldl (next sampleCode) quitSaid

theorem quitExchange_run :
    (servedMachine sampleCode lastPaint paintedScreens paintStart).Run
      (paintSays ++ paintArrives ++ quitSays ++ quitEnds) quitExchange :=
  Machine.Run.start.follow (by decide +kernel)

theorem quit_shows_final_screen_painted : quitExchange.client.wired.loop.display.fed = [.bytes [98], .bytes [99]] ∧
    quitExchange.client.wired.loop.display.fed.foldl lastPaint [] = paintedScreens shutdownNum :=
  ⟨by decide +kernel, (quit_shows_final_screen lastPaint paintedScreens sampleCode sampleCode_aead sampleZlib_faithful
    (MoshDisplay.newBlank 80 24) 80 24 true .v4 10000 0 _ quitExchange quitExchange_run (by decide +kernel)
    (by simp [paintSays, paintArrives, quitSays, quitEnds])).1⟩

end Exchange

end MoshModel
