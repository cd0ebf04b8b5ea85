import MoshClient.Session.Delivery

namespace MoshModel

open Transition

/-- What the commands add to the stream of the user: all before the first that asks for the shutdown. -/
def calledInput : List SessionCommand → List UserEvent
  | [] => []
  | .input bytes :: commands => bytes.map .byte ++ calledInput commands
  | .resize width height :: commands => .resize width height :: calledInput commands
  | .startShutdown :: _ => []
  | .terminate :: commands => calledInput commands

theorem calledInput_prefix (commands more : List SessionCommand) :
    calledInput commands <+: calledInput (commands ++ more) := by
  induction commands with
  | nil => exact List.nil_prefix
  | cons command commands ih =>
    cases command with
    | input bytes => exact (List.prefix_append_right_inj _).mpr ih
    | resize width height => exact List.cons_prefix_cons.mpr ⟨rfl, ih⟩
    | startShutdown => exact List.nil_prefix
    | terminate => exact ih

theorem calledInput_shut {commands : List SessionCommand} (shut : .startShutdown ∈ commands)
    (more : List SessionCommand) : calledInput (commands ++ more) = calledInput commands := by
  induction commands with
  | nil => exact absurd shut List.not_mem_nil
  | cons command commands ih =>
    cases command with
    | startShutdown => rfl
    | input bytes =>
      rw [List.cons_append, calledInput, calledInput, ih (by simpa using shut)]
    | resize width height =>
      rw [List.cons_append, calledInput, calledInput, ih (by simpa using shut)]
    | terminate => exact ih (by simpa using shut)

def drainedCommands (trace : List RunAction) : List SessionCommand :=
  trace.filterMap fun
    | .command command => some command
    | _ => none

theorem typedInput_drained (trace : List RunAction) : typedInput trace = calledInput (drainedCommands trace) := by
  induction trace with
  | nil => rfl
  | cons action trace ih =>
    cases action with
    | command command =>
      cases command with
      | input bytes => exact congrArg (bytes.map UserEvent.byte ++ ·) ih
      | resize width height => exact congrArg (UserEvent.resize width height :: ·) ih
      | startShutdown => rfl
      | terminate => exact ih
    | wake _ | drained | send _ _ _ | settle _ | receive _ _ _ _ | nothing | call _ => exact ih

theorem asksShutdown_drained (trace : List RunAction) :
    trace.any RunAction.asksShutdown = true → .startShutdown ∈ drainedCommands trace := by
  intro asks
  obtain ⟨action, member, asked⟩ := List.any_eq_true.mp asks
  refine List.mem_filterMap.mpr ⟨action, member, ?_⟩
  cases action with
  | command command => cases command <;> first | rfl | cases asked
  | _ => cases asked

/-- An exchange whose client is behind its handle: the commands called that the loop is yet to drain. -/
structure Embedding (D F : Type) where
  exchange : Exchange D F
  queued : List SessionCommand

inductive EmbeddingAction where
  | called (command : SessionCommand)
  | within (action : ExchangeAction)

namespace Embedding

variable {D F : Type}

def start (code : LoopCode F) (display : D) (cols rows : Int32) (predictionOn : Bool) (family : SocketFamily)
    (hopIntervalMs peerNow : Nat) : Embedding D F :=
  { exchange := Exchange.start code display cols rows predictionOn family hopIntervalMs peerNow, queued := [] }

/-- The loop takes the oldest command off the channel, and sees it drained when none is left. -/
def Draws (embedding : Embedding D F) : ExchangeAction → Prop
  | .client (.command command) => embedding.queued.head? = some command
  | .client .drained => embedding.queued = []
  | _ => True

instance (embedding : Embedding D F) (action : ExchangeAction) : Decidable (embedding.Draws action) :=
  match action with
  | .client (.command command) => inferInstanceAs (Decidable (embedding.queued.head? = some command))
  | .client .drained => inferInstanceAs (Decidable (embedding.queued = []))
  | .client (.wake _) | .client (.send _ _ _) | .client (.settle _) | .client (.receive _ _ _ _)
  | .client .nothing | .client (.call _) | .arrive _ _ | .say _ _ _ | .echo _ => inferInstanceAs (Decidable True)

def allowed (code : LoopCode F) (embedding : Embedding D F) : EmbeddingAction → Prop
  | .called _ => True
  | .within action => embedding.Draws action ∧ embedding.exchange.allowed code action

instance (code : LoopCode F) (embedding : Embedding D F) (action : EmbeddingAction) :
    Decidable (embedding.allowed code action) :=
  match action with
  | .called _ => inferInstanceAs (Decidable True)
  | .within _ => inferInstanceAs (Decidable (_ ∧ _))

variable [MoshDisplay D]

def next (code : LoopCode F) (embedding : Embedding D F) : EmbeddingAction → Embedding D F
  | .called command => { embedding with queued := embedding.queued ++ [command] }
  | .within action =>
    { exchange := embedding.exchange.next code action
      queued := embedding.queued.drop (drainedCommands (clientTrace [action])).length }

end Embedding

def embeddingMachine {D F : Type} [MoshDisplay D] (code : LoopCode F) (first : Embedding D F) :
    Machine (Embedding D F) EmbeddingAction where
  init := first
  allowed := Embedding.allowed code
  next := Embedding.next code

instance {D F : Type} [MoshDisplay D] (code : LoopCode F) (first embedding : Embedding D F)
    (action : EmbeddingAction) : Decidable ((embeddingMachine code first).allowed embedding action) :=
  inferInstanceAs (Decidable (embedding.allowed code action))

def calls (trace : List EmbeddingAction) : List SessionCommand :=
  trace.filterMap fun
    | .called command => some command
    | _ => none

def exchangeTrace (trace : List EmbeddingAction) : List ExchangeAction :=
  trace.filterMap fun
    | .within action => some action
    | _ => none

namespace Embedding

variable {D F : Type} {code : LoopCode F} {embedding : Embedding D F}

theorem Draws.front {action : ExchangeAction} (draws : embedding.Draws action) :
    drainedCommands (clientTrace [action]) <+: embedding.queued := by
  cases action with
  | client action =>
    cases action with
    | command command =>
      obtain ⟨rest, split⟩ := List.head?_eq_some_iff.mp draws
      exact ⟨rest, split.symm⟩
    | wake _ | drained | send _ _ _ | settle _ | receive _ _ _ _ | nothing | call _ => exact List.nil_prefix
  | arrive _ _ | say _ _ _ | echo _ => exact List.nil_prefix

variable [MoshDisplay D] {first : Embedding D F} {trace : List EmbeddingAction}

theorem exchange_run (run : (embeddingMachine code first).Run trace embedding) :
    (exchangeMachine code first.exchange).Run (exchangeTrace trace) embedding.exchange := by
  refine run.invariant (motive := fun trace embedding =>
    (exchangeMachine code first.exchange).Run (exchangeTrace trace) embedding.exchange) .start ?_
  intro trace embedding action _ ran allowed
  unfold exchangeTrace
  rw [List.filterMap_append]
  cases action with
  | called command =>
    rw [List.filterMap_cons_none rfl, List.filterMap_nil, List.append_nil]
    exact ran
  | within action => exact ran.step allowed.2

/-- The channel loses, repeats and reorders nothing. -/
theorem channel (empty : first.queued = []) (run : (embeddingMachine code first).Run trace embedding) :
    calls trace = drainedCommands (clientTrace (exchangeTrace trace)) ++ embedding.queued := by
  refine run.invariant (motive := fun trace (embedding : Embedding D F) =>
    calls trace = drainedCommands (clientTrace (exchangeTrace trace)) ++ embedding.queued) ?_ ?_
  · exact empty.symm
  · intro trace embedding action _ through allowed
    cases action with
    | called command =>
      have calling : calls (trace ++ [.called command]) = calls trace ++ [command] := List.filterMap_append ..
      have within : exchangeTrace (trace ++ [.called command]) = exchangeTrace trace := by
        simp [exchangeTrace]
      rw [calling, within, through, List.append_assoc]
      rfl
    | within action =>
      have calling : calls (trace ++ [.within action]) = calls trace := by simp [calls]
      have within : exchangeTrace (trace ++ [.within action]) = exchangeTrace trace ++ [action] :=
        List.filterMap_append ..
      obtain ⟨rest, split⟩ := allowed.1.front
      have left : embedding.queued.drop (drainedCommands (clientTrace [action])).length = rest := by
        rw [← split, List.drop_left]
      rw [calling, within, through, show clientTrace (exchangeTrace trace ++ [action]) =
        clientTrace (exchangeTrace trace) ++ clientTrace [action] from List.filterMap_append ..,
        show drainedCommands (clientTrace (exchangeTrace trace) ++ clientTrace [action]) =
          drainedCommands (clientTrace (exchangeTrace trace)) ++ drainedCommands (clientTrace [action]) from
          List.filterMap_append .., List.append_assoc, ← split]
      exact congrArg (fun queued => _ ++ (_ ++ queued)) left.symm

/-- What was typed is the start of what was called for, and all of it once the shutdown is on its way. -/
theorem typed_called (empty : first.queued = []) (run : (embeddingMachine code first).Run trace embedding) :
    typedInput (clientTrace (exchangeTrace trace)) <+: calledInput (calls trace) ∧
      ((clientTrace (exchangeTrace trace)).any RunAction.asksShutdown = true →
        calledInput (calls trace) = typedInput (clientTrace (exchangeTrace trace))) := by
  rw [channel empty run, typedInput_drained]
  constructor
  · exact calledInput_prefix _ _
  · exact fun asks => calledInput_shut (asksShutdown_drained _ asks) _

/-- Over any network that makes nothing up, what the peer holds is always the start of what the embedder called
    for, with nothing missing, doubled or out of place; it holds the state that the session takes for
    acknowledged, and finds no error in what it receives. -/
theorem calls_arrive_in_order (code : LoopCode F) (aead : SoundAead code.encrypt code.decrypt)
    (faithful : code.zlib.Faithful) (display : D) (cols rows : Int32) (predictionOn : Bool) (family : SocketFamily)
    (hopIntervalMs peerNow : Nat) (trace : List EmbeddingAction) (embedding : Embedding D F)
    (run : (embeddingMachine code (start code display cols rows predictionOn family hopIntervalMs peerNow)).Run trace
      embedding) :
    (∀ s ∈ embedding.exchange.peer.receiver.received,
        s.state.events <+: .resize cols rows :: calledInput (calls trace)) ∧
      (∃ s ∈ embedding.exchange.peer.receiver.received,
        s.num = embedding.exchange.client.wired.loop.shared.userAcked) ∧
      ∀ bytes, Exchange.Authentic code.decrypt embedding.exchange.peer.opener embedding.exchange.outbound bytes →
        ∀ inst ∈ embedding.exchange.peer.completes code.toWireCode bytes, ∀ now error,
          (embedding.exchange.peer.receiver.processInstruction UserStream.applyString inst now).1 ≠ .error error := by
  have behind := exchange_run run
  refine ⟨?_, Exchange.acknowledged_held aead faithful behind, ?_⟩
  · intro s member
    have typed := Exchange.typed_prefix aead faithful behind s member
    exact typed.trans (List.cons_prefix_cons.mpr ⟨rfl, (typed_called rfl run).1⟩)
  · exact fun bytes authentic => Exchange.completed_accepted aead faithful behind authentic

/-- A session that ends cleanly, other than on the peer's own quit, has lost nothing that was called for. -/
theorem clean_end_delivers (code : LoopCode F) (aead : SoundAead code.encrypt code.decrypt)
    (faithful : code.zlib.Faithful) (display : D) (cols rows : Int32) (predictionOn : Bool) (family : SocketFamily)
    (hopIntervalMs peerNow : Nat) (trace : List EmbeddingAction) (embedding : Embedding D F)
    (run : (embeddingMachine code (start code display cols rows predictionOn family hopIntervalMs peerNow)).Run trace
      embedding)
    (clean : .ended true none ∈ embedding.exchange.client.wired.loop.events)
    (staying : ∀ sending ∈ embedding.exchange.peer.said, sending.call.inst.newNum ≠ shutdownNum) :
    ∃ s ∈ embedding.exchange.peer.receiver.received, s.num = shutdownNum ∧
      s.state.events = .resize cols rows :: calledInput (calls trace) := by
  have behind := exchange_run run
  obtain ⟨started, acknowledged⟩ := Exchange.clean_end_acknowledged aead faithful behind clean staying
  have asks := Exchange.shutdown_asked aead faithful behind
  rw [started] at asks
  rw [(typed_called rfl run).2 asks.symm]
  exact Exchange.shutdown_holds aead faithful behind acknowledged

def quitStart : Embedding PlainScreen Nat := start sampleCode (MoshDisplay.newBlank 80 24) 80 24 true .v4 portHopIntervalMs 0

def quitSends : List EmbeddingAction :=
  [.within (.client (.wake 0)), .within (.client .drained), .within (.client (.settle false)),
    .within (.client .nothing), .called (.input [104, 105]), .called .startShutdown, .within (.client (.wake 300)),
    .within (.client (.command (.input [104, 105]))), .within (.client (.command .startShutdown)),
    .within (.client .drained), .called (.input [106]), .within (.client (.send 300 300 false)),
    .within (.client (.settle false))]

def quitSent : Embedding PlainScreen Nat := quitSends.foldl (next sampleCode) quitStart

def quitAnswers : List EmbeddingAction :=
  [.within (.arrive (quitSent.exchange.outbound.headD []) 310),
    .within (.say { protocolVersion := 2, oldNum := 0, newNum := 1, ackNum := shutdownNum, throwawayNum := 0,
                    diff := [], chaff := [] } 500 { timestamp := 310, timestampReply := noTimestamp })]

def quitAnswered : Embedding PlainScreen Nat := quitAnswers.foldl (next sampleCode) quitSent

def quitEnds : List EmbeddingAction :=
  [.within (.client (.receive (quitAnswered.exchange.inbound.headD []) id 320 320)), .within (.client (.wake 330)),
    .within (.client (.command (.input [106]))), .within (.client .drained), .within (.client (.settle false))]

def quitEmbedding : Embedding PlainScreen Nat := quitEnds.foldl (next sampleCode) quitAnswered

theorem quitEmbedding_run :
    (embeddingMachine sampleCode quitStart).Run (quitSends ++ quitAnswers ++ quitEnds) quitEmbedding :=
  Machine.Run.start.follow (by decide +kernel)

theorem calls_arrive_in_order_quit :
    quitEmbedding.exchange.client.wired.loop.shared.userAcked = shutdownNum ∧
      ∃ s ∈ quitEmbedding.exchange.peer.receiver.received,
        s.num = quitEmbedding.exchange.client.wired.loop.shared.userAcked :=
  ⟨by decide +kernel, (calls_arrive_in_order sampleCode sampleCode_aead sampleZlib_faithful
    (MoshDisplay.newBlank 80 24) 80 24 true .v4 10000 0 _ quitEmbedding quitEmbedding_run).2.1⟩

theorem clean_end_delivers_quit : ∃ s ∈ quitEmbedding.exchange.peer.receiver.received, s.num = shutdownNum ∧
    s.state.events = [.resize 80 24, .byte 104, .byte 105] :=
  clean_end_delivers sampleCode sampleCode_aead sampleZlib_faithful (MoshDisplay.newBlank 80 24) 80 24 true .v4 10000
    0 _ quitEmbedding quitEmbedding_run (by decide +kernel) (by decide +kernel)

end Embedding

end MoshModel
