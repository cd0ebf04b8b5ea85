import MoshClient.Session.GuessSteps

namespace MoshModel

open Transition

namespace PredictionState

variable {cols rows : Int32} {frame : UInt64} {prediction : PredictionState}

def Printable (byte : UInt8) : Prop := 0x20 ≤ byte ∧ byte < 0x7F

instance (byte : UInt8) : Decidable (Printable byte) := inferInstanceAs (Decidable (_ ∧ _))

def typed (prediction : PredictionState) (frame : UInt64) (byte : UInt8) : PredictionState :=
  let (col, row) := prediction.shadow
  { prediction with
    cells := prediction.cells ++ [{ row := row, col := col, ch := Char.ofUInt8 byte }]
    frames := prediction.frames ++ [frame], cursor := some (col + 1, row) }

theorem feed_printable {byte : UInt8} (printable : Printable byte) (bytes : Bytes) :
    prediction.feed cols rows frame (byte :: bytes) =
      if prediction.shadow.1 < cols - 1 then (prediction.typed frame byte).feed cols rows frame bytes
      else prediction.feed cols rows frame bytes := by
  have noReturn : byte ≠ 0x0D := by
    rintro rfl
    exact absurd printable.1 (by decide)
  have noBackspace : byte ≠ 0x7F := by
    rintro rfl
    exact absurd printable.2 (by decide)
  rw [feed, if_neg noReturn, if_neg noBackspace]
  exact if_pos printable

theorem feed_printable_prefix {bytes : Bytes} (printable : ∀ byte ∈ bytes, Printable byte) :
    prediction.cells <+: (prediction.feed cols rows frame bytes).cells := by
  induction bytes generalizing prediction with
  | nil => exact List.prefix_refl _
  | cons byte bytes ih =>
    obtain ⟨first, others⟩ := List.forall_mem_cons.mp printable
    have grown : prediction.cells <+: (prediction.typed frame byte).cells := List.prefix_append _ _
    rw [feed_printable first]
    split
    · exact grown.trans (ih others)
    · exact ih others

theorem feed_printable_margin {bytes : Bytes} (printable : ∀ byte ∈ bytes, Printable byte)
    (margin : ¬prediction.shadow.1 < cols - 1) : prediction.feed cols rows frame bytes = prediction := by
  induction bytes with
  | nil => rfl
  | cons byte bytes ih =>
    obtain ⟨first, others⟩ := List.forall_mem_cons.mp printable
    rw [feed_printable first, if_neg margin]
    exact ih others

theorem feed_printable_first {bytes : Bytes} (printable : ∀ byte ∈ bytes, Printable byte) (some_byte : bytes ≠ [])
    (none_left : prediction.cells = []) :
    (prediction.feed cols rows frame bytes).cells.head?.map (fun cell => (cell.col, cell.row)) =
      if prediction.shadow.1 < cols - 1 then some prediction.shadow else none := by
  by_cases fits : prediction.shadow.1 < cols - 1
  · rw [if_pos fits]
    cases bytes with
    | nil => exact absurd rfl some_byte
    | cons byte bytes =>
      obtain ⟨first, others⟩ := List.forall_mem_cons.mp printable
      rw [feed_printable first, if_pos fits]
      have kept : (prediction.typed frame byte).cells <+:
          ((prediction.typed frame byte).feed cols rows frame bytes).cells := feed_printable_prefix others
      obtain ⟨more, split⟩ := kept
      rw [← split]
      simp only [typed, none_left, List.nil_append, List.cons_append, List.head?_cons, Option.map_some]
  · rw [if_neg fits, feed_printable_margin printable fits, none_left]
    rfl

/-- Once set, the shadow stays set: only a clear unsets it. -/
theorem feed_cursor_set {bytes : Bytes} (set : prediction.cursor ≠ none) :
    (prediction.feed cols rows frame bytes).cursor ≠ none := by
  fun_induction feed cols rows frame prediction bytes with
  | case1 prediction => exact set
  | case2 prediction bytes ih => exact ih (Option.some_ne_none _)
  | case3 prediction bytes last found _ ih => exact ih (Option.some_ne_none _)
  | case4 prediction bytes found _ ih => exact ih set
  | case5 prediction byte bytes _ _ _ col row _ fits ih => exact ih (Option.some_ne_none _)
  | case6 prediction byte bytes _ _ _ col row _ margin ih => exact ih set
  | case7 prediction byte bytes => exact set

end PredictionState

/-- A session with the frames of all bursts it guessed, and of those since its guesses were last cleared. -/
structure ShadowConfig (D : Type) where
  loop : SessionLoop D
  bursts : List UInt64
  carried : List UInt64

namespace ShadowConfig

variable {D : Type} [MoshDisplay D]

def start (display : D) (cols rows : Int32) (predictionOn : Bool) : ShadowConfig D :=
  { loop := SessionLoop.start display cols rows predictionOn, bursts := [], carried := [] }

def next (zlib : Zlib) (config : ShadowConfig D) (action : SessionAction) : ShadowConfig D :=
  let noted := { config with loop := config.loop.next zlib action }
  match action with
  | .drain (.input bytes) _ =>
    if config.loop.sender.shutdownInProgress = false ∧ config.loop.Guessed bytes then
      let frame := config.loop.sender.queue.back.num + 1
      { noted with bursts := config.bursts ++ [frame], carried := config.carried ++ [frame] }
    else noted
  | .setPrediction enabled => { noted with carried := if enabled then config.carried else [] }
  | _ => noted

/-- The echo acks have confirmed every guess: none is left, and every burst was under a frame up to the
    newest. -/
def Confirmed (config : ShadowConfig D) : Prop :=
  config.loop.prediction.cells = [] ∧
    ∀ frame ∈ config.bursts, frame ≤ config.loop.receiver.latestState.echoAck

instance (config : ShadowConfig D) : Decidable config.Confirmed :=
  have := List.decidableBAll (fun frame => frame ≤ config.loop.receiver.latestState.echoAck) config.bursts
  inferInstanceAs (Decidable (_ ∧ _))

def cursor (config : ShadowConfig D) : Int32 × Int32 :=
  let (col, row, _) := MoshDisplay.cursor config.loop.display.engine
  (col, row)

def StartsAtCursor (config : ShadowConfig D) (bytes : Bytes) (now : Nat) : Prop :=
  (config.loop.drainCommand now (.input bytes)).prediction.cells.head?.map (fun cell => (cell.col, cell.row)) =
    some config.cursor

instance (config : ShadowConfig D) (bytes : Bytes) (now : Nat) : Decidable (config.StartsAtCursor bytes now) :=
  inferInstanceAs (Decidable (_ = _))

/-- A typed burst that starts left of the last column, before a shutdown. -/
structure Fresh (config : ShadowConfig D) (bytes : Bytes) : Prop where
  going : config.loop.sender.shutdownInProgress = false
  guessed : config.loop.Guessed bytes
  typed : bytes ≠ []
  printable : ∀ byte ∈ bytes, PredictionState.Printable byte
  room : config.cursor.1 < config.loop.shownCols - 1

variable {zlib : Zlib} {config : ShadowConfig D}

theorem placed_cells (loop : SessionLoop D) : loop.placed.cells = loop.prediction.cells := by
  unfold SessionLoop.placed
  dsimp only
  split <;> rfl

theorem placed_cursor (loop : SessionLoop D) : loop.placed.cursor ≠ none := by
  unfold SessionLoop.placed
  dsimp only
  split
  · exact Option.some_ne_none _
  · rename_i set
    rwa [Option.isNone_iff_eq_none] at set

theorem placed_shadow (config : ShadowConfig D) :
    config.loop.placed.shadow = config.loop.prediction.cursor.getD config.cursor := by
  unfold SessionLoop.placed PredictionState.shadow
  cases held : config.loop.prediction.cursor with
  | none => rfl
  | some shadow =>
    dsimp only
    rw [if_neg (by simp), held]
    rfl

def Noted (config : ShadowConfig D) : Prop := config.loop.prediction.cursor = none ↔ config.carried = []

omit [MoshDisplay D] in
theorem Noted.kept (noted : Noted config) {loop : SessionLoop D}
    (cursor : loop.prediction.cursor = config.loop.prediction.cursor) :
    Noted { config with loop := loop } := by
  unfold Noted at *
  rw [cursor]
  exact noted

theorem Noted.input (noted : Noted config) (bytes : Bytes) (now : Nat) :
    Noted (config.next zlib (.drain (.input bytes) now)) := by
  by_cases going : config.loop.sender.shutdownInProgress = false
  · obtain ⟨-, -, guessed, unguessed⟩ := config.loop.drain_input bytes now going
    by_cases burst : config.loop.Guessed bytes
    · have set : (config.loop.drainCommand now (.input bytes)).prediction.cursor ≠ none := by
        rw [guessed burst]
        exact PredictionState.feed_cursor_set (placed_cursor config.loop)
      unfold ShadowConfig.next
      dsimp only
      rw [if_pos ⟨going, burst⟩]
      apply iff_of_false set
      exact List.append_ne_nil_of_right_ne_nil _ (List.cons_ne_nil _ _)
    · unfold ShadowConfig.next
      dsimp only
      rw [if_neg fun both => burst both.2]
      apply noted.kept
      exact congrArg PredictionState.cursor (unguessed burst)
  · have shutting : config.loop.sender.shutdownInProgress = true := Bool.eq_true_of_not_eq_false going
    have dropped : config.loop.drainCommand now (.input bytes) = config.loop := if_pos shutting
    unfold ShadowConfig.next
    dsimp only
    rw [if_neg fun both => going both.1]
    apply noted.kept
    exact congrArg (fun loop => loop.prediction.cursor) dropped

theorem Noted.next (noted : Noted config) (action : SessionAction) : Noted (config.next zlib action) := by
  cases action with
  | handle inst addresses now =>
    apply noted.kept
    show (config.loop.handleInstruction addresses inst now).prediction.cursor = _
    rcases (config.loop.handleInstruction_settled addresses inst now).prediction with same | ⟨echoAck, retired⟩
    · rw [same]
    · rw [retired]
      rfl
  | drain command now =>
    cases command with
    | input bytes => exact noted.input bytes now
    | resize width height =>
      apply noted.kept
      show (if config.loop.sender.shutdownInProgress = true then _ else _ : SessionLoop D).prediction.cursor = _
      split <;> rfl
    | startShutdown => exact noted.kept rfl
    | terminate => exact noted.kept rfl
  | tick now rto sendInterval mtu => exact noted.kept rfl
  | waitTime now rto sendInterval => exact noted.kept rfl
  | resizeDisplay width height =>
    apply noted.kept
    show (config.loop.resizeDisplay width height).prediction.cursor = _
    unfold SessionLoop.resizeDisplay
    split <;> rfl
  | takeHostBytes => exact noted.kept rfl
  | setHostBytesCapture enabled => exact noted.kept rfl
  | setPrediction enabled =>
    cases enabled with
    | true => exact noted
    | false => exact iff_of_true rfl rfl

end ShadowConfig

open ShadowConfig

def shadowMachine {D : Type} [MoshDisplay D] (zlib : Zlib) (display : D) (cols rows : Int32)
    (predictionOn : Bool) : Machine (ShadowConfig D) SessionAction where
  init := ShadowConfig.start display cols rows predictionOn
  allowed _ _ := True
  next := ShadowConfig.next zlib

instance {D : Type} [MoshDisplay D] (zlib : Zlib) (display : D) (cols rows : Int32) (predictionOn : Bool)
    (config : ShadowConfig D) (action : SessionAction) :
    Decidable ((shadowMachine zlib display cols rows predictionOn).allowed config action) :=
  inferInstanceAs (Decidable True)

theorem reachable_noted {D : Type} [MoshDisplay D] {zlib : Zlib} {display : D} {cols rows : Int32}
    {predictionOn : Bool} {config : ShadowConfig D}
    (reached : (shadowMachine zlib display cols rows predictionOn).Reachable config) : Noted config := by
  apply reached.invariant
  · exact iff_of_true rfl rfl
  · intro config action _ noted _
    exact noted.next action

/-- Once every guess is confirmed, the next typed burst starts at the engine cursor just when nothing was
    guessed since the last clear, or the shadow that the retired guesses left happens to stand there. -/
theorem fresh_run_start {D : Type} [MoshDisplay D] (zlib : Zlib) (display : D) (cols rows : Int32)
    (predictionOn : Bool) (config : ShadowConfig D)
    (reached : (shadowMachine zlib display cols rows predictionOn).Reachable config)
    (confirmed : config.Confirmed) (bytes : Bytes) (now : Nat) (fresh : config.Fresh bytes) :
    config.StartsAtCursor bytes now ↔
      config.carried = [] ∨ config.loop.prediction.cursor = some config.cursor := by
  have noted : config.loop.prediction.cursor = none ↔ config.carried = [] := reachable_noted reached
  obtain ⟨-, -, guessed, -⟩ := config.loop.drain_input bytes now fresh.going
  have empty : config.loop.placed.cells = [] := (placed_cells config.loop).trans confirmed.1
  unfold StartsAtCursor
  rw [guessed fresh.guessed, PredictionState.feed_printable_first fresh.printable fresh.typed empty, placed_shadow,
    ← noted]
  cases config.loop.prediction.cursor with
  | none =>
    apply iff_of_true _ (.inl rfl)
    exact if_pos fresh.room
  | some shadow =>
    constructor
    · intro starts
      right
      by_contra other
      split at starts
      · exact other starts
      · cases starts
    · intro stands
      have here : shadow = config.cursor := Option.some.inj (stands.resolve_left (Option.some_ne_none _))
      subst here
      exact if_pos fresh.room

structure CursorScreen where
  cols : UInt64
  rows : UInt64
  col : Int32
  row : Int32

def CursorScreen.put (screen : CursorScreen) (byte : UInt8) : CursorScreen :=
  if byte = 0x0D then { screen with col := 0 }
  else if byte = 0x0A then { screen with row := screen.row + 1 }
  else { screen with col := screen.col + 1 }

instance : MoshDisplay CursorScreen where
  newBlank cols rows := { cols := cols, rows := rows, col := 0, row := 0 }
  feed screen bytes := bytes.foldl CursorScreen.put screen
  resize screen cols rows := { screen with cols := cols, rows := rows }
  cols := CursorScreen.cols
  rows := CursorScreen.rows
  cursor screen := (screen.col, screen.row, true)

def cursorStart : ShadowConfig CursorScreen := ShadowConfig.start (MoshDisplay.newBlank 80 24) 80 24 true

def answered (shown : Bytes) : TransportInstruction :=
  { protocolVersion := 2, oldNum := 0, newNum := 1, ackNum := 1, throwawayNum := 0,
    diff := HostMessage.encode ⟨[.hostBytes shown, .echoAck 1]⟩, chaff := [] }

def echoedKey (shown : Bytes) : List SessionAction :=
  [.drain (.input [97]) 0, .tick 0 1000 250 500, .tick 300 1000 250 500,
    .handle (answered shown) (fun i => 100 + i) 400]

def echoedConfig (shown : Bytes) : ShadowConfig CursorScreen :=
  (echoedKey shown).foldl (ShadowConfig.next sampleZlib) cursorStart

theorem echoedConfig_reachable (shown : Bytes) :
    (shadowMachine sampleZlib (MoshDisplay.newBlank 80 24 : CursorScreen) 80 24 true).Reachable
      (echoedConfig shown) := by
  have follows : (shadowMachine sampleZlib (MoshDisplay.newBlank 80 24 : CursorScreen) 80 24 true).Follows
      cursorStart (echoedKey shown) := by
    simp [echoedKey, Machine.Follows, shadowMachine]
  exact ⟨_, Machine.Run.start.follow follows⟩

theorem echoedConfig_fresh (shown : Bytes) (going : (echoedConfig shown).loop.sender.shutdownInProgress = false)
    (guessed : (echoedConfig shown).loop.Guessed [98])
    (room : (echoedConfig shown).cursor.1 < (echoedConfig shown).loop.shownCols - 1) :
    (echoedConfig shown).Fresh [98] where
  going := going
  guessed := guessed
  typed := List.cons_ne_nil _ _
  printable := List.forall_mem_singleton.mpr (by decide)
  room := room

theorem fresh_run_start_echoed : (echoedConfig [97]).StartsAtCursor [98] 410 := by
  apply (fresh_run_start sampleZlib (MoshDisplay.newBlank 80 24 : CursorScreen) 80 24 true _
    (echoedConfig_reachable [97]) (by decide +kernel) [98] 410 ?_).mpr
  · exact .inr (by decide +kernel)
  · exact echoedConfig_fresh [97] (by decide +kernel) (by decide +kernel) (by decide +kernel)

/-- An echo with a new line moves the cursor away from the shadow, which the retired guess still pins. -/
theorem fresh_run_start_pinned :
    ¬∀ (D : Type) (_ : MoshDisplay D) (zlib : Zlib) (display : D) (cols rows : Int32) (predictionOn : Bool)
      (config : ShadowConfig D), (shadowMachine zlib display cols rows predictionOn).Reachable config →
      config.Confirmed → ∀ (bytes : Bytes) (now : Nat), config.Fresh bytes → config.StartsAtCursor bytes now := by
  intro starts
  have fresh := echoedConfig_fresh [97, 0x0D, 0x0A] (by decide +kernel) (by decide +kernel) (by decide +kernel)
  have wrong := starts CursorScreen _ sampleZlib (MoshDisplay.newBlank 80 24) 80 24 true _
    (echoedConfig_reachable [97, 0x0D, 0x0A]) (by decide +kernel) [98] 410 fresh
  exact absurd wrong (by decide +kernel)

end MoshModel
