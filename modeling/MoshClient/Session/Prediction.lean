import MoshClient.Wire.Messages
import MoshClient.Library.PartitionPoint

namespace MoshModel

def pasteThreshold : Nat := 100

structure PredictedCell where
  row : Int32
  col : Int32
  ch : Char
deriving DecidableEq

/-- The cells guessed ahead of the server, each with the user-stream frame it was typed under. -/
structure PredictionState where
  enabled : Bool
  cells : List PredictedCell
  frames : List UInt64
  cursor : Option (Int32 × Int32)
deriving DecidableEq

namespace PredictionState

def new (enabled : Bool) : PredictionState := { enabled := enabled, cells := [], frames := [], cursor := none }

def shadow (prediction : PredictionState) : Int32 × Int32 := prediction.cursor.getD (0, 0)

/-- A return moves the shadow to the next line, a backspace takes the last cell back, and anything
    unprintable ends the guesses of the burst. -/
def feed (cols rows : Int32) (frame : UInt64) (prediction : PredictionState) : Bytes → PredictionState
  | [] => prediction
  | byte :: bytes =>
    if byte = 0x0D then
      feed cols rows frame { prediction with cursor := some (0, min (prediction.shadow.2 + 1) (rows - 1)) } bytes
    else if byte = 0x7F then
      match prediction.cells.getLast? with
      | some last =>
        feed cols rows frame
          { prediction with
            cursor := some (last.col, last.row), cells := prediction.cells.dropLast
            frames := prediction.frames.dropLast } bytes
      | none => feed cols rows frame prediction bytes
    else if 0x20 ≤ byte ∧ byte < 0x7F then
      let (col, row) := prediction.shadow
      if col < cols - 1 then
        feed cols rows frame
          { prediction with
            cells := prediction.cells ++ [{ row := row, col := col, ch := Char.ofUInt8 byte }]
            frames := prediction.frames ++ [frame], cursor := some (col + 1, row) } bytes
      else feed cols rows frame prediction bytes
    else prediction

def confirmedPrefixLen (prediction : PredictionState) (echoAck : UInt64) : Nat :=
  PartitionPoint.partitionPoint (· ≤ echoAck) prediction.frames

def clear (prediction : PredictionState) : PredictionState :=
  { prediction with cells := [], frames := [], cursor := none }

end PredictionState

end MoshModel
