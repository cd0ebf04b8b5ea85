import MoshClient.Session.Prediction

namespace MoshModel

/-- A predicted cell with its frame and the place in the user's input of the keystroke it guesses. -/
structure Guess where
  cell : PredictedCell
  frame : UInt64
  origin : Nat

namespace PredictionState

/-- The origins of the guesses once the next byte was fed: a cell more guesses that byte, a cell less
    takes its origin along. -/
def noteOrigin (before after : PredictionState) (position : Nat) (origins : List Nat) : List Nat :=
  if before.cells.length < after.cells.length then origins ++ [position]
  else if after.cells.length < before.cells.length then origins.dropLast
  else origins

def trackOrigins (cols rows : Int32) (frame : UInt64) (prediction : PredictionState) (position : Nat)
    (origins : List Nat) (bytes : Bytes) : List Nat :=
  (List.range bytes.length).foldl (fun origins i =>
    noteOrigin (prediction.feed cols rows frame (bytes.take i))
      (prediction.feed cols rows frame (bytes.take (i + 1))) (position + i) origins) origins

variable {cols rows : Int32} {frame : UInt64} {prediction : PredictionState}

theorem trackOrigins_step {one : PredictionState} {byte : UInt8}
    (step : ∀ bytes, prediction.feed cols rows frame (byte :: bytes) = one.feed cols rows frame bytes)
    (position : Nat) (origins : List Nat) (bytes : Bytes) :
    prediction.trackOrigins cols rows frame position origins (byte :: bytes) =
      one.trackOrigins cols rows frame (position + 1) (noteOrigin prediction one position origins) bytes := by
  unfold trackOrigins
  rw [List.length_cons, List.range_succ_eq_map, List.foldl_cons, List.foldl_map]
  simp only [Nat.succ_eq_add_one, List.take_zero, List.take_succ_cons, step, feed, Nat.add_zero]
  congr 1
  funext origins i
  rw [Nat.add_assoc, Nat.add_comm 1 i]

theorem trackOrigins_stop {byte : UInt8}
    (stop : ∀ bytes, prediction.feed cols rows frame (byte :: bytes) = prediction) (position : Nat)
    (origins : List Nat) (bytes : Bytes) :
    prediction.trackOrigins cols rows frame position origins (byte :: bytes) = origins := by
  have still : ∀ count, prediction.feed cols rows frame ((byte :: bytes).take count) = prediction := by
    intro count
    cases count with
    | zero => rfl
    | succ count => exact stop _
  unfold trackOrigins
  simp only [still, noteOrigin, Nat.lt_irrefl, if_false]
  exact List.foldl_fixed ..

theorem feed_cons_cases (cols rows : Int32) (frame : UInt64) (prediction : PredictionState) (byte : UInt8) :
    (∀ bytes, prediction.feed cols rows frame (byte :: bytes) = prediction) ∨
      ∃ one : PredictionState,
        (∀ bytes, prediction.feed cols rows frame (byte :: bytes) = one.feed cols rows frame bytes) ∧
        ((one.cells = prediction.cells ∧ one.frames = prediction.frames) ∨
          (prediction.cells ≠ [] ∧ one.cells = prediction.cells.dropLast ∧
            one.frames = prediction.frames.dropLast) ∨
          ∃ cell : PredictedCell, cell.ch = Char.ofUInt8 byte ∧ one.cells = prediction.cells ++ [cell] ∧
            one.frames = prediction.frames ++ [frame]) := by
  by_cases carriage : byte = 0x0D
  · right
    refine ⟨{ prediction with cursor := some (0, min (prediction.shadow.2 + 1) (rows - 1)) },
      fun bytes => ?_, .inl ⟨rfl, rfl⟩⟩
    rw [feed, if_pos carriage]
  · by_cases back : byte = 0x7F
    · right
      cases last : prediction.cells.getLast? with
      | none =>
        refine ⟨prediction, fun bytes => ?_, .inl ⟨rfl, rfl⟩⟩
        rw [feed, if_neg carriage, if_pos back, last]
      | some cell =>
        refine ⟨{ prediction with
          cursor := some (cell.col, cell.row), cells := prediction.cells.dropLast
          frames := prediction.frames.dropLast }, fun bytes => ?_, .inr (.inl ⟨?_, rfl, rfl⟩)⟩
        · rw [feed, if_neg carriage, if_pos back, last]
        · intro empty
          rw [empty] at last
          cases last
    · by_cases printable : 0x20 ≤ byte ∧ byte < 0x7F
      · right
        by_cases fits : prediction.shadow.1 < cols - 1
        · refine ⟨{ prediction with
            cells := prediction.cells ++
              [{ row := prediction.shadow.2, col := prediction.shadow.1, ch := Char.ofUInt8 byte }]
            frames := prediction.frames ++ [frame]
            cursor := some (prediction.shadow.1 + 1, prediction.shadow.2) },
            fun bytes => ?_, .inr (.inr ⟨_, rfl, rfl, rfl⟩)⟩
          rw [feed, if_neg carriage, if_neg back, if_pos printable]
          exact if_pos fits
        · refine ⟨prediction, fun bytes => ?_, .inl ⟨rfl, rfl⟩⟩
          rw [feed, if_neg carriage, if_neg back, if_pos printable]
          exact if_neg fits
      · left
        intro bytes
        rw [feed, if_neg carriage, if_neg back, if_neg printable]

structure Tracked (prediction : PredictionState) (origins : List Nat) (guesses : List Guess) : Prop where
  cells : prediction.cells = guesses.map Guess.cell
  frames : prediction.frames = guesses.map Guess.frame
  origins : origins = guesses.map Guess.origin

theorem Tracked.stays {one : PredictionState} {origins : List Nat} {guesses : List Guess}
    (tracked : Tracked prediction origins guesses) (position : Nat) (cells : one.cells = prediction.cells)
    (frames : one.frames = prediction.frames) :
    Tracked one (noteOrigin prediction one position origins) guesses := by
  have noted : noteOrigin prediction one position origins = origins := by
    unfold noteOrigin
    rw [cells, if_neg (Nat.lt_irrefl _), if_neg (Nat.lt_irrefl _)]
  exact ⟨cells.trans tracked.cells, frames.trans tracked.frames, noted.trans tracked.origins⟩

theorem Tracked.loses {one : PredictionState} {origins : List Nat} {guesses : List Guess}
    (tracked : Tracked prediction origins guesses) (position : Nat) (some_cell : prediction.cells ≠ [])
    (cells : one.cells = prediction.cells.dropLast) (frames : one.frames = prediction.frames.dropLast) :
    Tracked one (noteOrigin prediction one position origins) guesses.dropLast := by
  have shorter : one.cells.length < prediction.cells.length := by
    have := List.length_pos_iff.mpr some_cell
    rw [cells, List.length_dropLast]
    omega
  have noted : noteOrigin prediction one position origins = origins.dropLast := by
    unfold noteOrigin
    rw [if_neg (Nat.lt_asymm shorter), if_pos shorter]
  constructor
  · rw [cells, tracked.cells, List.map_dropLast]
  · rw [frames, tracked.frames, List.map_dropLast]
  · rw [noted, tracked.origins, List.map_dropLast]

theorem Tracked.gains {one : PredictionState} {origins : List Nat} {guesses : List Guess}
    (tracked : Tracked prediction origins guesses) (position : Nat) {cell : PredictedCell}
    (cells : one.cells = prediction.cells ++ [cell]) (frames : one.frames = prediction.frames ++ [frame]) :
    Tracked one (noteOrigin prediction one position origins)
      (guesses ++ [{ cell := cell, frame := frame, origin := position }]) := by
  have longer : prediction.cells.length < one.cells.length := by
    rw [cells, List.length_append, List.length_singleton]
    exact Nat.lt_succ_self _
  have noted : noteOrigin prediction one position origins = origins ++ [position] := by
    unfold noteOrigin
    rw [if_pos longer]
  constructor
  · rw [cells, tracked.cells, List.map_append, List.map_singleton]
  · rw [frames, tracked.frames, List.map_append, List.map_singleton]
  · rw [noted, tracked.origins, List.map_append, List.map_singleton]

/-- The rule of a burst: what outlives the loss of the last guess, and the guess of a typed byte under the
    frame of the burst, holds of the guesses after it. -/
theorem Tracked.feed {motive : List Guess → Prop} (back : ∀ guesses, motive guesses → motive guesses.dropLast)
    (position : Nat) (bytes : Bytes)
    (typed : ∀ guesses guess i byte, motive guesses → bytes[i]? = some byte → guess.frame = frame →
      guess.origin = position + i → guess.cell.ch = Char.ofUInt8 byte → motive (guesses ++ [guess]))
    {origins : List Nat} {guesses : List Guess} (tracked : Tracked prediction origins guesses)
    (start : motive guesses) :
    ∃ after, Tracked (prediction.feed cols rows frame bytes)
      (prediction.trackOrigins cols rows frame position origins bytes) after ∧ motive after := by
  induction bytes generalizing prediction position origins guesses with
  | nil => exact ⟨guesses, tracked, start⟩
  | cons byte bytes ih =>
    have later : ∀ guesses guess i byte, motive guesses → bytes[i]? = some byte → guess.frame = frame →
        guess.origin = position + 1 + i → guess.cell.ch = Char.ofUInt8 byte → motive (guesses ++ [guess]) := by
      intro guesses guess i byte holds found framed origin shown
      exact typed guesses guess (i + 1) byte holds found framed (by omega) shown
    rcases feed_cons_cases cols rows frame prediction byte with stop | ⟨one, step, change⟩
    · rw [stop, trackOrigins_stop stop]
      exact ⟨guesses, tracked, start⟩
    · rw [step, trackOrigins_step step]
      rcases change with ⟨cells, frames⟩ | ⟨some_cell, cells, frames⟩ | ⟨cell, shown, cells, frames⟩
      · exact ih (position + 1) later (tracked.stays position cells frames) start
      · exact ih (position + 1) later (tracked.loses position some_cell cells frames) (back guesses start)
      · apply ih (position + 1) later (tracked.gains position cells frames)
        exact typed guesses _ 0 byte start rfl rfl rfl shown

theorem Tracked.drop {origins : List Nat} {guesses : List Guess} (tracked : Tracked prediction origins guesses)
    {after : PredictionState} (count : Nat) (cells : after.cells = prediction.cells.drop count)
    (frames : after.frames = prediction.frames.drop count) :
    Tracked after (origins.drop count) (guesses.drop count) := by
  constructor
  · rw [cells, tracked.cells, List.map_drop]
  · rw [frames, tracked.frames, List.map_drop]
  · rw [tracked.origins, List.map_drop]

theorem Tracked.confirmed {origins : List Nat} {guesses : List Guess}
    (tracked : Tracked prediction origins guesses)
    (ordered : guesses.Pairwise fun earlier later => earlier.frame ≤ later.frame) (echoAck : UInt64) :
    ∃ front rest, guesses = front ++ rest ∧ (∀ guess ∈ front, guess.frame ≤ echoAck) ∧
      (∀ guess ∈ rest, echoAck < guess.frame) ∧ prediction.confirmedPrefixLen echoAck = front.length := by
  have downward : guesses.Pairwise fun earlier later =>
      decide (later.frame ≤ echoAck) = true → decide (earlier.frame ≤ echoAck) = true :=
    ordered.imp fun order later => decide_eq_true (UInt64.le_trans order (of_decide_eq_true later))
  obtain ⟨front, rest, rfl, holds, fails⟩ := PartitionPoint.exists_split downward
  refine ⟨front, rest, rfl, fun guess member => of_decide_eq_true (holds guess member),
    fun guess member => UInt64.not_le.mp (of_decide_eq_false (fails guess member)), ?_⟩
  unfold confirmedPrefixLen
  rw [tracked.frames, List.map_append, PartitionPoint.partitionPoint_append, List.length_map]
  · exact List.forall_mem_map.mpr holds
  · exact List.forall_mem_map.mpr fails

end PredictionState

end MoshModel
