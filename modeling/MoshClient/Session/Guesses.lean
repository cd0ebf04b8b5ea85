import MoshClient.Session.GuessSteps
import MoshClient.Ssp.SenderRuns

namespace MoshModel

open Transition

/-- A guess that is right about its keystroke: the byte at its origin, which the user states from its
    frame on contain and none before. -/
structure Right (pushed : List UserEvent) (assigned : List Numbered) (newest : UInt64) (guess : Guess) :
    Prop where
  typed : ∃ byte, pushed[guess.origin]? = some (.byte byte) ∧ guess.cell.ch = Char.ofUInt8 byte
  contains : ∀ entry ∈ assigned, guess.frame ≤ entry.1 ↔ guess.origin < entry.2.length
  numbered : guess.frame = newest + 1 ∨ ∃ log, (guess.frame, log) ∈ assigned

namespace Right

variable {pushed : List UserEvent} {assigned : List Numbered} {newest : UInt64} {guess : Guess}

theorem inside (right : Right pushed assigned newest guess) : guess.origin < pushed.length := by
  obtain ⟨byte, found, -⟩ := right.typed
  exact (List.getElem?_eq_some_iff.mp found).1

theorem push (right : Right pushed assigned newest guess) (events : List UserEvent) :
    Right (pushed ++ events) assigned newest guess := by
  obtain ⟨byte, found, shown⟩ := right.typed
  refine ⟨⟨byte, ?_, shown⟩, right.contains, right.numbered⟩
  rw [List.getElem?_append_left right.inside, found]

theorem frame_le (right : Right pushed assigned newest guess) (below : ∀ entry ∈ assigned, entry.1 ≤ newest)
    (room : newest < newest + 1) : guess.frame ≤ newest + 1 := by
  rcases right.numbered with next | ⟨log, member⟩
  · exact UInt64.le_of_eq next
  · exact UInt64.le_of_lt (UInt64.lt_of_le_of_lt (below _ member) room)

theorem appended (right : Right pushed assigned newest guess) (below : ∀ entry ∈ assigned, entry.1 ≤ newest)
    (room : newest < newest + 1) :
    Right pushed (assigned ++ [(newest + 1, pushed)]) (newest + 1) guess := by
  refine ⟨right.typed, fun entry member => ?_, .inr ?_⟩
  · rcases History.mem_snoc.mp member with old | rfl
    · exact right.contains entry old
    · exact iff_of_true (right.frame_le below room) right.inside
  · rcases right.numbered with next | ⟨log, member⟩
    · exact ⟨pushed, List.mem_append_right _ (next ▸ List.mem_singleton.mpr rfl)⟩
    · exact ⟨log, List.mem_append_left _ member⟩

theorem refreshed (right : Right pushed assigned newest guess) (named : (newest, pushed) ∈ assigned) :
    Right pushed (assigned ++ [(newest, pushed)]) newest guess := by
  refine ⟨right.typed, fun entry member => ?_, right.numbered.imp id ?_⟩
  · rcases History.mem_snoc.mp member with old | rfl
    · exact right.contains entry old
    · exact right.contains _ named
  · rintro ⟨log, member⟩
    exact ⟨log, List.mem_append_left _ member⟩

theorem fresh (below : ∀ entry ∈ assigned, entry.1 ≤ newest ∧ entry.2 <+: pushed) (room : newest < newest + 1)
    {bytes : Bytes} {i : Nat} {byte : UInt8} (found : bytes[i]? = some byte)
    (framed : guess.frame = newest + 1) (origin : guess.origin = pushed.length + i)
    (shown : guess.cell.ch = Char.ofUInt8 byte) :
    Right (pushed ++ bytes.map .byte) assigned newest guess := by
  refine ⟨⟨byte, ?_, shown⟩, fun entry member => ?_, .inl framed⟩
  · rw [origin, List.getElem?_append_right (Nat.le_add_right _ _), Nat.add_sub_cancel_left, List.getElem?_map,
      found]
    rfl
  · obtain ⟨order, known⟩ := below entry member
    apply iff_of_false
    · rw [framed, UInt64.not_le]
      exact UInt64.lt_of_le_of_lt order room
    · have := known.length_le
      omega

/-- The first sent state that contains the keystroke is the one the frame numbers; before there is one,
    the frame is the next number. -/
theorem first_containing (right : Right pushed assigned newest guess)
    (ordered : assigned.Pairwise fun earlier later => earlier.1 ≤ later.1)
    (below : ∀ entry ∈ assigned, entry.1 ≤ newest) (room : newest < newest + 1) :
    (∀ first, assigned.find? (fun entry => guess.origin < entry.2.length) = some first →
        first.1 = guess.frame) ∧
      (assigned.find? (fun entry => guess.origin < entry.2.length) = none → guess.frame = newest + 1) := by
  have holds : ∀ log, (guess.frame, log) ∈ assigned → guess.origin < log.length :=
    fun log member => (right.contains _ member).mp (UInt64.le_refl _)
  constructor
  · intro first found
    obtain ⟨contains, earlier, later, rfl, before⟩ := List.find?_eq_some_iff_append.mp found
    have reaches := (right.contains first (by simp)).mpr (of_decide_eq_true contains)
    apply UInt64.le_antisymm ?_ reaches
    rcases right.numbered with next | ⟨log, member⟩
    · have newer := UInt64.lt_of_le_of_lt (UInt64.le_trans reaches (below first (by simp))) room
      rw [next] at newer
      exact absurd newer (UInt64.lt_irrefl _)
    · rcases List.mem_append.mp member with old | rest
      · have absent := before _ old
        simp only [Bool.not_eq_true', decide_eq_false_iff_not] at absent
        exact absurd (holds log member) absent
      · rcases List.mem_cons.mp rest with same | after
        · exact UInt64.le_of_eq (congrArg Prod.fst same.symm)
        · exact (List.pairwise_cons.mp (List.pairwise_append.mp ordered).2.1).1 _ after
  · intro absent
    apply right.numbered.resolve_right
    rintro ⟨log, member⟩
    have missing := List.find?_eq_none.mp absent _ member
    exact missing (decide_eq_true (holds log member))

end Right

/-- A session before its shutdown, with what the user gave it, the numbers it assigned, and the place in
    the input of the keystroke that each predicted cell guesses. -/
structure GuessConfig (D : Type) where
  loop : SessionLoop D
  clock : Nat
  pushed : List UserEvent
  assigned : List Numbered
  sendings : List Sending
  origins : List Nat

namespace GuessConfig

variable {D : Type}

def start (display : D) (cols rows : Int32) (predictionOn : Bool) : GuessConfig D :=
  { loop := SessionLoop.start display cols rows predictionOn, clock := 0, pushed := [.resize cols rows],
    assigned := [(0, [])], sendings := [], origins := [] }

def toSender (config : GuessConfig D) : SenderConfig :=
  { sender := config.loop.sender, fragmenter := config.loop.fragmenter, clock := config.clock,
    pushed := config.pushed, assigned := config.assigned, sendings := config.sendings }

variable [MoshDisplay D]

def nextPushed (config : GuessConfig D) : SessionAction → List UserEvent
  | .drain (.input bytes) _ => config.pushed ++ bytes.map .byte
  | .drain (.resize width height) _ => config.pushed ++ [.resize width height]
  | _ => config.pushed

def nextOrigins (config : GuessConfig D) (after : SessionLoop D) : SessionAction → List Nat
  | .drain (.input bytes) _ =>
    if config.loop.Guessed bytes then
      config.loop.placed.trackOrigins config.loop.shownCols config.loop.shownRows
        (config.loop.sender.queue.back.num + 1) config.pushed.length config.origins bytes
    else config.origins
  | _ =>
    -- guesses go from the front, the oldest first
    config.origins.drop (config.loop.prediction.cells.length - after.prediction.cells.length)

def next (zlib : Zlib) (config : GuessConfig D) (action : SessionAction) : GuessConfig D :=
  let after := config.loop.next zlib action
  let noted := { config with loop := after, pushed := config.nextPushed action
                             origins := config.nextOrigins after action }
  match action with
  | .tick now rto sendInterval mtu =>
    let ticked := config.toSender.tick zlib now rto sendInterval mtu
    { noted with clock := now, assigned := ticked.assigned, sendings := ticked.sendings }
  | .waitTime now _ _ => { noted with clock := now }
  | _ => noted

/-- No shutdown yet, a clock that never goes back, and room for what is pushed and numbered. -/
def allowed (config : GuessConfig D) : SessionAction → Prop
  | .drain (.input bytes) _ => config.loop.sender.currentState.events.length + bytes.length ≤ isizeMax
  | .drain (.resize _ _) _ => config.loop.sender.currentState.events.length + 1 ≤ isizeMax
  | .drain .startShutdown _ => False
  | .tick now _ _ _ => config.clock ≤ now ∧ config.loop.sender.queue.back.num < shutdownNum - 1
  | .waitTime now _ _ => config.clock ≤ now
  | _ => True

instance (config : GuessConfig D) (action : SessionAction) : Decidable (config.allowed action) :=
  match action with
  | .drain (.input _) _ | .drain (.resize _ _) _ => inferInstanceAs (Decidable (_ ≤ _))
  | .drain .startShutdown _ => inferInstanceAs (Decidable False)
  | .tick _ _ _ _ => inferInstanceAs (Decidable (_ ∧ _))
  | .waitTime _ _ _ => inferInstanceAs (Decidable (_ ≤ _))
  | .handle _ _ _ | .drain .terminate _ | .resizeDisplay _ _ | .takeHostBytes | .setHostBytesCapture _
  | .setPrediction _ => inferInstanceAs (Decidable True)

/-- The session's guesses are right, and their frames in order. -/
structure Guessing (zlib : Zlib) (config : GuessConfig D) : Prop where
  sound : config.toSender.Sound zlib
  going : config.loop.sender.shutdownInProgress = false
  inOrder : config.assigned.Pairwise fun earlier later => earlier.1 ≤ later.1
  guesses : ∃ guesses, PredictionState.Tracked config.loop.prediction config.origins guesses ∧
    (guesses.Pairwise fun earlier later => earlier.frame ≤ later.frame) ∧
    ∀ guess ∈ guesses, Right config.pushed config.assigned config.loop.sender.queue.back.num guess

variable {zlib : Zlib} {config : GuessConfig D}

omit [MoshDisplay D] in
theorem Guessing.start (zlib : Zlib) (display : D) (cols rows : Int32) (predictionOn : Bool) :
    Guessing zlib (start display cols rows predictionOn) := by
  refine ⟨?_, rfl, List.pairwise_singleton _ _, [], ⟨rfl, rfl, rfl⟩, List.Pairwise.nil, nofun⟩
  exact SenderConfig.push_sound (SenderConfig.start_sound zlib 0 1) [.resize cols rows] _ rfl rfl
    (show 0 + 1 ≤ isizeMax by decide)

omit [MoshDisplay D] in
theorem Guessing.release (guessing : Guessing zlib config) {loop : SessionLoop D} {clock : Nat}
    (sound : (toSender { config with loop := loop, clock := clock }).Sound zlib)
    (going : loop.sender.shutdownInProgress = false)
    (back : loop.sender.queue.back.num = config.loop.sender.queue.back.num) (count : Nat)
    (cells : loop.prediction.cells = config.loop.prediction.cells.drop count)
    (frames : loop.prediction.frames = config.loop.prediction.frames.drop count) :
    Guessing zlib { config with loop := loop, clock := clock
                                origins := config.origins.drop (config.loop.prediction.cells.length -
                                  loop.prediction.cells.length) } := by
  obtain ⟨guesses, tracked, ordered, right⟩ := guessing.guesses
  have size : config.origins.length = config.loop.prediction.cells.length := by
    rw [tracked.origins, tracked.cells, List.length_map, List.length_map]
  have dropped : config.origins.drop (config.loop.prediction.cells.length - loop.prediction.cells.length) =
      config.origins.drop count := by
    rw [cells, List.length_drop]
    by_cases inside : count ≤ config.loop.prediction.cells.length
    · rw [Nat.sub_sub_self inside]
    · rw [List.drop_eq_nil_of_le (show config.origins.length ≤ _ by omega),
        List.drop_eq_nil_of_le (show config.origins.length ≤ count by omega)]
  refine ⟨sound, going, guessing.inOrder, guesses.drop count, ?_, ordered.sublist (List.drop_sublist _ _), ?_⟩
  · rw [dropped]
    exact tracked.drop count cells frames
  · intro guess member
    rw [back]
    exact right guess (List.mem_of_mem_drop member)

theorem Guessing.tick (guessing : Guessing zlib config) (now rto sendInterval mtu : Nat)
    (room : config.loop.sender.queue.back.num < shutdownNum - 1) :
    Guessing zlib (config.next zlib (.tick now rto sendInterval mtu)) := by
  obtain ⟨sound, -, shutdown, -⟩ := SenderConfig.tick_step guessing.sound now rto sendInterval mtu fun _ => room
  obtain ⟨newest, next, -⟩ := guessing.sound.newest guessing.going
  have below := fun entry member => (newest entry member).1
  have assigned := SenderConfig.tick_assigned guessing.sound guessing.going now rto sendInterval mtu
  obtain ⟨guesses, tracked, ordered, right⟩ := guessing.guesses
  have kept : config.origins.drop (config.loop.prediction.cells.length - config.loop.prediction.cells.length) =
      config.origins := by rw [Nat.sub_self, List.drop_zero]
  have stays : PredictionState.Tracked config.loop.prediction (config.origins.drop
      (config.loop.prediction.cells.length - config.loop.prediction.cells.length)) guesses := by
    rw [kept]
    exact tracked
  refine ⟨sound, shutdown.trans guessing.going, ?_, guesses, stays, ordered, fun guess member => ?_⟩
  · show (config.toSender.tick zlib now rto sendInterval mtu).assigned.Pairwise _
    rcases assigned with ⟨same, -⟩ | ⟨appended, -⟩ | ⟨refreshed, -⟩
    · rw [same]
      exact guessing.inOrder
    · rw [appended]
      exact History.pairwise_snoc.mpr ⟨guessing.inOrder, fun entry member =>
        UInt64.le_of_lt (UInt64.lt_of_le_of_lt (below entry member) next)⟩
    · rw [refreshed]
      exact History.pairwise_snoc.mpr ⟨guessing.inOrder, below⟩
  · show Right config.pushed (config.toSender.tick zlib now rto sendInterval mtu).assigned
      (config.toSender.tick zlib now rto sendInterval mtu).sender.queue.back.num guess
    rcases assigned with ⟨same, back⟩ | ⟨appended, back⟩ | ⟨refreshed, back, named⟩
    · rw [same, back]
      exact right guess member
    · rw [appended, back]
      exact (right guess member).appended below next
    · rw [refreshed, back]
      exact (right guess member).refreshed named

theorem Guessing.input (guessing : Guessing zlib config) (bytes : Bytes) (now : Nat)
    (room : config.loop.sender.currentState.events.length + bytes.length ≤ isizeMax) :
    Guessing zlib (config.next zlib (.drain (.input bytes) now)) := by
  obtain ⟨newest, next, -⟩ := guessing.sound.newest guessing.going
  obtain ⟨guesses, tracked, ordered, right⟩ := guessing.guesses
  obtain ⟨sender, fragmenter, guessed, unguessed⟩ := config.loop.drain_input bytes now guessing.going
  have sound := SenderConfig.push_sound guessing.sound (bytes.map .byte)
    (config.loop.sender.currentState.pushBytes bytes) rfl guessing.going (by rw [List.length_map]; exact room)
  have pushed : ∀ guess ∈ guesses, Right (config.pushed ++ bytes.map .byte) config.assigned
      config.loop.sender.queue.back.num guess := fun guess member => (right guess member).push _
  refine ⟨?_, ?_, guessing.inOrder, ?_⟩
  · show SenderConfig.Sound zlib { config.toSender with
      sender := (config.loop.drainCommand now (.input bytes)).sender
      fragmenter := (config.loop.drainCommand now (.input bytes)).fragmenter
      pushed := config.pushed ++ bytes.map .byte }
    rw [sender, fragmenter]
    exact sound
  · show (config.loop.drainCommand now (.input bytes)).sender.shutdownInProgress = false
    rw [sender]
    exact guessing.going
  · show ∃ guesses, PredictionState.Tracked (config.loop.drainCommand now (.input bytes)).prediction
      (config.nextOrigins (config.loop.drainCommand now (.input bytes)) (.drain (.input bytes) now))
      guesses ∧ _ ∧ ∀ guess ∈ guesses,
        Right (config.pushed ++ bytes.map .byte) config.assigned
          (config.loop.drainCommand now (.input bytes)).sender.queue.back.num guess
    rw [sender]
    by_cases burst : config.loop.Guessed bytes
    · rw [guessed burst, nextOrigins, if_pos burst]
      refine (config.loop.placed_tracked tracked).feed ?_ config.pushed.length bytes ?_ ⟨ordered, pushed⟩
      · rintro guesses ⟨ordered, right⟩
        exact ⟨ordered.sublist (List.dropLast_sublist _), fun guess member =>
          right guess ((List.dropLast_sublist _).subset member)⟩
      · rintro guesses guess i byte ⟨ordered, right⟩ found framed origin shown
        have fresh := Right.fresh newest next found framed origin shown
        constructor
        · refine History.pairwise_snoc.mpr ⟨ordered, fun earlier member => ?_⟩
          rw [framed]
          exact (right earlier member).frame_le (fun entry member => (newest entry member).1) next
        · intro other member
          rcases History.mem_snoc.mp member with old | rfl
          · exact right other old
          · exact fresh
    · rw [unguessed burst, nextOrigins, if_neg burst]
      exact ⟨guesses, tracked, ordered, pushed⟩

theorem Guessing.resize (guessing : Guessing zlib config) (width height : Int32) (now : Nat)
    (room : config.loop.sender.currentState.events.length + 1 ≤ isizeMax) :
    Guessing zlib (config.next zlib (.drain (.resize width height) now)) := by
  obtain ⟨guesses, tracked, ordered, right⟩ := guessing.guesses
  have sound := SenderConfig.push_sound guessing.sound [.resize width height]
    (config.loop.sender.currentState.pushResize width height) rfl guessing.going room
  have drained : config.loop.drainCommand now (.resize width height) = { config.loop with
      sender := config.loop.sender.setCurrentState (config.loop.sender.currentState.pushResize width height) } := by
    simp only [SessionLoop.drainCommand, guessing.going, Bool.false_eq_true, if_false]
  have next : config.next zlib (.drain (.resize width height) now) = { config with
      loop := { config.loop with
        sender := config.loop.sender.setCurrentState (config.loop.sender.currentState.pushResize width height) }
      pushed := config.pushed ++ [.resize width height], origins := config.origins } := by
    simp only [GuessConfig.next, SessionLoop.next, drained, nextPushed, nextOrigins, Nat.sub_self,
      List.drop_zero]
  rw [next]
  exact ⟨sound, guessing.going, guessing.inOrder, guesses, ⟨tracked.cells, tracked.frames, tracked.origins⟩,
    ordered, fun guess member => (right guess member).push _⟩

omit [MoshDisplay D] in
theorem Guessing.settled (guessing : Guessing zlib config) {loop : SessionLoop D}
    (settled : SessionLoop.Settled config.loop loop) :
    Guessing zlib { config with loop := loop
                                origins := config.origins.drop (config.loop.prediction.cells.length -
                                  loop.prediction.cells.length) } := by
  obtain ⟨-, -, newest⟩ := guessing.sound.newest guessing.going
  obtain ⟨queue, current, shutdown, fragmenter, prediction⟩ := settled
  have sound : (toSender { config with loop := loop, clock := config.clock }).Sound zlib ∧
      loop.sender.queue.back.num = config.loop.sender.queue.back.num := by
    have here : SenderConfig.Sound zlib { config.toSender with
        sender := loop.sender } ∧ loop.sender.queue.back.num = config.loop.sender.queue.back.num := by
      rcases queue with same | ⟨ack, acked⟩
      · exact ⟨SenderConfig.idle_sound guessing.sound same current shutdown, by rw [same]⟩
      · refine ⟨SenderConfig.idle_sound (SenderConfig.acknowledge_sound guessing.sound ack) acked current
          shutdown, ?_⟩
        rw [acked]
        exact congrArg TimestampedState.num
          (config.loop.sender.queue.processAcknowledgmentThrough_back ack newest)
    rw [toSender, fragmenter]
    exact here
  rcases prediction with same | ⟨echoAck, retired⟩
  · exact guessing.release sound.1 (shutdown.trans guessing.going) sound.2 0 (by rw [same]; rfl) (by rw [same]; rfl)
  · exact guessing.release sound.1 (shutdown.trans guessing.going) sound.2
      (config.loop.prediction.confirmedPrefixLen echoAck) (by rw [retired]; rfl) (by rw [retired]; rfl)

theorem Guessing.next (guessing : Guessing zlib config) (action : SessionAction)
    (allowed : config.allowed action) : Guessing zlib (config.next zlib action) := by
  have still : ∀ {loop : SessionLoop D}, loop.sender = config.loop.sender →
      loop.fragmenter = config.loop.fragmenter → loop.prediction = config.loop.prediction →
      SessionLoop.Settled config.loop loop := by
    intro loop sender fragmenter prediction
    refine ⟨.inl ?_, ?_, ?_, fragmenter, .inl prediction⟩ <;> rw [sender]
  cases action with
  | handle inst addresses now =>
    exact guessing.settled (config.loop.handleInstruction_settled addresses inst now)
  | drain command now =>
    cases command with
    | input bytes => exact guessing.input bytes now allowed
    | resize width height => exact guessing.resize width height now allowed
    | startShutdown => exact allowed.elim
    | terminate => exact guessing.settled (still rfl rfl rfl)
  | tick now rto sendInterval mtu => exact guessing.tick now rto sendInterval mtu allowed.2
  | waitTime now rto sendInterval =>
    have sound : SenderConfig.Sound zlib { config.toSender with
        sender := (config.loop.sender.waitTime now rto sendInterval).2, clock := now } :=
      SenderConfig.idle_sound guessing.sound rfl rfl rfl
    exact guessing.release sound guessing.going rfl 0 rfl rfl
  | resizeDisplay width height =>
    apply guessing.settled (still ?_ ?_ ?_)
    all_goals
      unfold SessionLoop.next SessionLoop.resizeDisplay
      dsimp only
      split <;> rfl
  | takeHostBytes => exact guessing.settled (still rfl rfl rfl)
  | setHostBytesCapture enabled => exact guessing.settled (still rfl rfl rfl)
  | setPrediction enabled =>
    obtain ⟨guesses, tracked, -⟩ := guessing.guesses
    cases enabled with
    | true => exact guessing.release guessing.sound guessing.going rfl 0 rfl rfl
    | false =>
      have sound : (toSender { config with
          loop := config.loop.next zlib (.setPrediction false), clock := config.clock }).Sound zlib :=
        guessing.sound
      apply guessing.release sound guessing.going rfl config.loop.prediction.cells.length
      · exact List.drop_length.symm
      · rw [tracked.cells, tracked.frames, List.length_map, ← List.map_drop, List.drop_length]
        rfl

end GuessConfig

open GuessConfig

def guessMachine {D : Type} [MoshDisplay D] (zlib : Zlib) (display : D) (cols rows : Int32)
    (predictionOn : Bool) : Machine (GuessConfig D) SessionAction where
  init := GuessConfig.start display cols rows predictionOn
  allowed := GuessConfig.allowed
  next := GuessConfig.next zlib

variable {D : Type} [MoshDisplay D]

instance (zlib : Zlib) (display : D) (cols rows : Int32) (predictionOn : Bool) (config : GuessConfig D)
    (action : SessionAction) :
    Decidable ((guessMachine zlib display cols rows predictionOn).allowed config action) :=
  inferInstanceAs (Decidable (config.allowed action))

theorem reachable_guessing {zlib : Zlib} {display : D} {cols rows : Int32} {predictionOn : Bool}
    {config : GuessConfig D}
    (reached : (guessMachine zlib display cols rows predictionOn).Reachable config) :
    Guessing zlib config :=
  reached.invariant (Guessing.start zlib display cols rows predictionOn) fun _ action _ guessing allowed =>
    guessing.next action allowed

/-- Retirement is exact: the frame of a predicted cell is the number of the first user state with its
    keystroke, and an echo ack retires just the cells under frames up to it. -/
theorem prediction_retirement (zlib : Zlib) (display : D) (cols rows : Int32) (predictionOn : Bool)
    (config : GuessConfig D)
    (reached : (guessMachine zlib display cols rows predictionOn).Reachable config) :
    let prediction := config.loop.prediction
    let guesses := (prediction.cells.zip prediction.frames).zip config.origins
    prediction.cells.length = prediction.frames.length ∧ prediction.cells.length = config.origins.length ∧
      prediction.frames.Pairwise (· ≤ ·) ∧
      (∀ cell frame origin, ((cell, frame), origin) ∈ guesses →
        (∃ byte, config.pushed[origin]? = some (.byte byte) ∧ cell.ch = Char.ofUInt8 byte) ∧
          (∀ first, config.assigned.find? (fun entry => origin < entry.2.length) = some first →
            first.1 = frame) ∧
          (config.assigned.find? (fun entry => origin < entry.2.length) = none →
            frame = config.loop.sender.queue.back.num + 1)) ∧
      ∀ echoAck,
        let settled := (config.loop.retirePredictions echoAck).2.prediction
        settled.cells.zip settled.frames =
            (prediction.cells.zip prediction.frames).filter (fun guess => echoAck < guess.2) ∧
          ∀ log, (echoAck, log) ∈ config.assigned → ∀ cell frame origin,
            ((cell, frame), origin) ∈ guesses → frame ≤ echoAck → origin < log.length := by
  intro prediction zipped
  have guessing := reachable_guessing reached
  obtain ⟨newest, next, -⟩ := guessing.sound.newest guessing.going
  obtain ⟨guesses, tracked, ordered, right⟩ := guessing.guesses
  have paired : prediction.cells.zip prediction.frames = guesses.map fun guess => (guess.cell, guess.frame) := by
    rw [tracked.cells, tracked.frames, List.zip_map']
  have member : ∀ cell frame origin, ((cell, frame), origin) ∈ zipped → ∃ guess ∈ guesses,
      guess.cell = cell ∧ guess.frame = frame ∧ guess.origin = origin := by
    intro cell frame origin found
    simp only [zipped, paired, tracked.origins, List.zip_map', List.mem_map, Prod.mk.injEq] at found
    obtain ⟨guess, stored, ⟨cell, frame⟩, origin⟩ := found
    exact ⟨guess, stored, cell, frame, origin⟩
  refine ⟨?_, ?_, ?_, ?_, fun echoAck => ⟨?_, ?_⟩⟩
  · rw [tracked.cells, tracked.frames, List.length_map, List.length_map]
  · rw [tracked.cells, tracked.origins, List.length_map, List.length_map]
  · rw [tracked.frames, List.pairwise_map]
    exact ordered
  · intro cell frame origin found
    obtain ⟨guess, stored, rfl, rfl, rfl⟩ := member cell frame origin found
    have first := (right guess stored).first_containing guessing.inOrder
      (fun entry member => (newest entry member).1) next
    exact ⟨(right guess stored).typed, first.1, first.2⟩
  · obtain ⟨front, rest, split, retired, kept, count⟩ := tracked.confirmed ordered echoAck
    show (prediction.cells.drop (prediction.confirmedPrefixLen echoAck)).zip
      (prediction.frames.drop (prediction.confirmedPrefixLen echoAck)) = _
    rw [count, paired, tracked.cells, tracked.frames, split, ← List.map_drop, ← List.map_drop, List.drop_left,
      List.zip_map', List.map_append, List.filter_append, List.filter_eq_nil_iff.mpr, List.filter_eq_self.mpr,
      List.nil_append]
    · exact List.forall_mem_map.mpr fun guess stored => decide_eq_true (kept guess stored)
    · exact List.forall_mem_map.mpr fun guess stored => by
        simpa using retired guess stored
  · intro log assigned cell frame origin found below
    obtain ⟨guess, stored, rfl, rfl, rfl⟩ := member cell frame origin found
    exact ((right guess stored).contains _ assigned).mp below

def echoing (old new echoAck : UInt64) : TransportInstruction :=
  { protocolVersion := 2, oldNum := old, newNum := new, ackNum := 0, throwawayNum := 0,
    diff := HostMessage.encode ⟨[.echoAck echoAck]⟩, chaff := [] }

/-- A burst sent, a burst that takes its last cell back and types another, and the echo of the first. -/
def retractedBurst : List SessionAction :=
  [.drain (.input [97, 98, 99]) 0, .tick 0 1000 250 500, .tick 300 1000 250 500, .drain (.input [0x7F, 100]) 310,
    .handle (echoing 0 1 1) (fun i => 100 + i) 320, .tick 600 1000 250 500]

theorem prediction_retirement_retracted :
    let config := retractedBurst.foldl (GuessConfig.next sampleZlib)
      (GuessConfig.start (MoshDisplay.newBlank 80 24 : PlainScreen) 80 24 true)
    config.loop.prediction.cells.map PredictedCell.ch = ['d'] ∧ config.origins = [5] ∧
      config.loop.prediction.frames.Pairwise (· ≤ ·) := by
  intro config
  have retirement := prediction_retirement sampleZlib (MoshDisplay.newBlank 80 24 : PlainScreen) 80 24 true config
    ⟨retractedBurst, Machine.Run.start.follow (show (guessMachine sampleZlib
      (MoshDisplay.newBlank 80 24 : PlainScreen) 80 24 true).Follows _ retractedBurst by decide +kernel)⟩
  exact ⟨by decide +kernel, by decide +kernel, retirement.2.2.1⟩

end MoshModel
