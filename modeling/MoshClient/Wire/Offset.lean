import MoshClient.Wire.Grammar

namespace MoshModel

/-- A read of what follows `pos`, seen from the start of the buffer. -/
def movedBy {α : Type} (pos : Nat) (read : Except WireError α × Nat) : Except WireError α × Nat :=
  (read.1, pos + read.2)

theorem readVarintFrom_drop (buf : Bytes) (pos rounds : Nat) (value : UInt64) (k : Nat) :
    readVarintFrom buf rounds value (pos + k) = movedBy pos (readVarintFrom (buf.drop pos) rounds value k) := by
  induction rounds generalizing value k with
  | zero => rfl
  | succ rounds ih =>
    unfold readVarintFrom
    rw [List.getElem?_drop]
    cases buf[pos + k]? with
    | none => rfl
    | some byte =>
      dsimp only
      split
      · rfl
      · exact ih _ (k + 1)

theorem readVarint_drop (buf : Bytes) (pos k : Nat) :
    readVarint buf (pos + k) = movedBy pos (readVarint (buf.drop pos) k) :=
  readVarintFrom_drop buf pos 10 0 k

theorem readTag_drop (buf : Bytes) (pos k : Nat) :
    readTag buf (pos + k) = movedBy pos (readTag (buf.drop pos) k) := by
  unfold readTag
  rw [readVarint_drop]
  cases readVarint (buf.drop pos) k with
  | mk result next => cases result <;> rfl

variable {buf : Bytes} {pos : Nat}

theorem room_drop (inside : pos ≤ buf.length) (stop : Nat) :
    buf.length < pos + stop ↔ (buf.drop pos).length < stop := by
  rw [List.length_drop]
  omega

theorem readLengthDelimited_drop (inside : pos ≤ buf.length) (k : Nat) :
    readLengthDelimited buf (pos + k) = movedBy pos (readLengthDelimited (buf.drop pos) k) := by
  unfold readLengthDelimited
  rw [readVarint_drop]
  cases readVarint (buf.drop pos) k with
  | mk result next =>
    cases result with
    | error e => rfl
    | ok len =>
      have window : (buf.take (pos + (next + len.toNat))).drop (pos + next) =
          ((buf.drop pos).take (next + len.toNat)).drop next := by
        rw [← List.drop_drop, List.drop_take, Nat.add_sub_cancel_left]
      simp only [movedBy, Nat.add_assoc, room_drop inside, window]
      split <;> rfl

theorem skipFixed_drop (inside : pos ≤ buf.length) (k width : Nat) :
    (if buf.length < pos + k + width then ((.error .truncated, pos + k) : Except WireError Unit × Nat)
      else (.ok (), pos + k + width)) =
        movedBy pos (if (buf.drop pos).length < k + width then (.error .truncated, k) else (.ok (), k + width)) := by
  rw [Nat.add_assoc]
  simp only [room_drop inside]
  split <;> rfl

theorem skipField_drop_of_group (inside : pos ≤ buf.length) (k : Nat) (wireType : UInt8)
    (group : skipGroup buf (pos + k) = movedBy pos (skipGroup (buf.drop pos) k)) :
    skipField buf (pos + k) wireType = movedBy pos (skipField (buf.drop pos) k wireType) := by
  obtain ⟨zero, one, two, five⟩ := skipField_flat buf (pos + k)
  obtain ⟨zeroTail, oneTail, twoTail, fiveTail⟩ := skipField_flat (buf.drop pos) k
  by_cases isZero : wireType = 0
  · rw [isZero, zero, zeroTail, readVarint_drop]
    rfl
  by_cases isOne : wireType = 1
  · rw [isOne, one, oneTail, skipFixed_drop inside]
  by_cases isTwo : wireType = 2
  · rw [isTwo, two, twoTail, readLengthDelimited_drop inside]
    rfl
  by_cases isFive : wireType = 5
  · rw [isFive, five, fiveTail, skipFixed_drop inside]
  by_cases isThree : wireType = 3
  · rw [isThree, skipField_group, skipField_group, group]
  · unfold skipField
    rw [skipFieldFrom, skipFieldFrom]
    simp only [isZero, isOne, isTwo, isFive, isThree, if_false]
    rfl

theorem skipGroup_drop (inside : pos ≤ buf.length) (k : Nat) :
    skipGroup buf (pos + k) = movedBy pos (skipGroup (buf.drop pos) k) := by
  generalize left : (buf.drop pos).length - k = size
  induction size using Nat.strongRecOn generalizing k with
  | ind size ih =>
    have advances := readTag_advances (buf.drop pos) k
    rw [skipGroup_eq, skipGroup_eq, readTag_drop]
    cases read : readTag (buf.drop pos) k with
    | mk result next =>
      rw [read] at advances
      cases result with
      | error e => rfl
      | ok tag =>
        obtain ⟨forward, bounded⟩ := advances.2 tag rfl
        dsimp only at forward bounded
        dsimp only [movedBy]
        by_cases close : tag.2 = 4
        · rw [if_pos close, if_pos close]
        · rw [if_neg close, if_neg close]
          have later := skipField_forward (buf.drop pos) next tag.2
          rw [skipField_drop_of_group inside next tag.2 (ih _ (by omega) next rfl)]
          cases skipped : skipField (buf.drop pos) next tag.2 with
          | mk result after =>
            rw [skipped] at later
            cases result with
            | error e => rfl
            | ok done => exact ih _ (by dsimp only at later; omega) after rfl

theorem skipField_drop (inside : pos ≤ buf.length) (k : Nat) (wireType : UInt8) :
    skipField buf (pos + k) wireType = movedBy pos (skipField (buf.drop pos) k wireType) :=
  skipField_drop_of_group inside k wireType (skipGroup_drop inside k)

end MoshModel
