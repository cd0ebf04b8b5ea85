import Mathlib.Data.List.Basic

set_option linter.unusedVariables false

namespace MoshModel

abbrev Bytes := List UInt8

inductive WireError where
  | truncated
  | badVarint
  | badLength
  | unmatchedGroup (wireType : UInt8)
deriving DecidableEq

def WireError.message : WireError → String
  | .truncated => "truncated protobuf"
  | .badVarint => "malformed varint (more than 10 bytes)"
  | .badLength => "length-delimited field longer than the buffer"
  | .unmatchedGroup wireType => "unsupported wire type " ++ toString wireType ++ " in a group"

-- The writers return what the source appends to its output buffer.

def writeVarint (value : UInt64) : Bytes :=
  if last : value >>> 7 = 0 then [(value &&& 0x7f).toUInt8]
  else ((value &&& 0x7f).toUInt8 ||| 0x80) :: writeVarint (value >>> 7)
termination_by value.toNat
decreasing_by
  have nonzero : (value >>> 7).toNat ≠ 0 := fun zero => last (UInt64.toNat_inj.mp (by simpa using zero))
  simp only [UInt64.toNat_shiftRight, UInt64.reduceToNat, Nat.reduceMod,
    Nat.shiftRight_eq_div_pow] at nonzero ⊢
  omega

def writeTag (field : UInt32) (wireType : UInt8) : Bytes :=
  writeVarint ((field.toUInt64 <<< 3) ||| wireType.toUInt64)

def writeBytesField (field : UInt32) (bytes : Bytes) : Bytes :=
  writeTag field 2 ++ writeVarint (UInt64.ofNat bytes.length) ++ bytes

def writeVarintField (field : UInt32) (value : UInt64) : Bytes :=
  writeTag field 0 ++ writeVarint value

def writeMessageField (field : UInt32) (inner : Bytes) : Bytes := writeBytesField field inner

-- The readers return their result with the position the shared cursor is left at,
-- on an error too: some callers go on from there.

def readVarintFrom (buf : Bytes) : Nat → UInt64 → Nat → Except WireError UInt64 × Nat
  | 0, _, pos => (.error .badVarint, pos)
  | rounds + 1, value, pos =>
    match buf[pos]? with
    | none => (.error .truncated, pos)
    | some byte =>
      let merged := value ||| ((byte &&& 0x7f).toUInt64 <<< UInt64.ofNat (7 * (9 - rounds)))
      if byte &&& 0x80 = 0 then (.ok merged, pos + 1) else readVarintFrom buf rounds merged (pos + 1)

def readVarint (buf : Bytes) (pos : Nat) : Except WireError UInt64 × Nat := readVarintFrom buf 10 0 pos

def readTag (buf : Bytes) (pos : Nat) : Except WireError (UInt32 × UInt8) × Nat :=
  match readVarint buf pos with
  | (.error e, next) => (.error e, next)
  | (.ok key, next) => (.ok ((key >>> 3).toUInt32, (key &&& 0x7).toUInt8), next)

-- `pos.checked_add(len)` cannot fail before the comparison with the buffer's length does.
def readLengthDelimited (buf : Bytes) (pos : Nat) : Except WireError Bytes × Nat :=
  match readVarint buf pos with
  | (.error e, next) => (.error e, next)
  | (.ok len, next) =>
    let stop := next + len.toNat
    if buf.length < stop then (.error .badLength, next)
    else (.ok ((buf.take stop).drop next), stop)

def Advances {α : Type} (buf : Bytes) (pos : Nat) (read : Except WireError α × Nat) : Prop :=
  pos ≤ read.2 ∧ ∀ value, read.1 = .ok value → pos < read.2 ∧ read.2 ≤ buf.length

theorem readVarintFrom_advances (buf : Bytes) (rounds : Nat) (value : UInt64) (pos : Nat) :
    Advances buf pos (readVarintFrom buf rounds value pos) := by
  induction rounds generalizing value pos with
  | zero => simp [readVarintFrom, Advances]
  | succ rounds ih =>
    unfold readVarintFrom
    cases found : buf[pos]? with
    | none => simp [Advances]
    | some byte =>
      obtain ⟨inside, -⟩ := List.getElem?_eq_some_iff.mp found
      dsimp only
      split
      · exact ⟨by simp, fun _ _ => ⟨by simp, inside⟩⟩
      · obtain ⟨lower, bounds⟩ := ih _ (pos + 1)
        exact ⟨by omega, fun result ok => ⟨by have := bounds result ok; omega, (bounds result ok).2⟩⟩

theorem readVarint_advances (buf : Bytes) (pos : Nat) : Advances buf pos (readVarint buf pos) :=
  readVarintFrom_advances buf 10 0 pos

theorem readTag_advances (buf : Bytes) (pos : Nat) : Advances buf pos (readTag buf pos) := by
  have varint := readVarint_advances buf pos
  unfold readTag
  cases read : readVarint buf pos with
  | mk result next =>
    rw [read] at varint
    cases result with
    | error e => exact ⟨varint.1, by simp⟩
    | ok key => exact ⟨varint.1, fun _ _ => varint.2 key rfl⟩

theorem readLengthDelimited_advances (buf : Bytes) (pos : Nat) :
    Advances buf pos (readLengthDelimited buf pos) := by
  have varint := readVarint_advances buf pos
  unfold readLengthDelimited
  cases read : readVarint buf pos with
  | mk result next =>
    rw [read] at varint
    cases result with
    | error e => exact ⟨varint.1, by simp⟩
    | ok len =>
      have inside := varint.2 len rfl
      dsimp only
      split
      · exact ⟨varint.1, by simp⟩
      · exact ⟨by dsimp only at *; omega, fun _ _ => by dsimp only at *; omega⟩

-- Skipping carries the proof that its cursor never moves back: the group loop recurses on it.
mutual

def skipFieldFrom (buf : Bytes) (pos : Nat) (wireType : UInt8) :
    Except WireError Unit × {next : Nat // pos ≤ next} :=
  if wireType = 0 then
    ((readVarint buf pos).1.map fun _ => (), ⟨(readVarint buf pos).2, (readVarint_advances buf pos).1⟩)
  else if wireType = 1 then
    if buf.length < pos + 8 then (.error .truncated, ⟨pos, Nat.le_refl _⟩)
    else (.ok (), ⟨pos + 8, Nat.le_add_right _ _⟩)
  else if wireType = 2 then
    ((readLengthDelimited buf pos).1.map fun _ => (),
      ⟨(readLengthDelimited buf pos).2, (readLengthDelimited_advances buf pos).1⟩)
  else if wireType = 5 then
    if buf.length < pos + 4 then (.error .truncated, ⟨pos, Nat.le_refl _⟩)
    else (.ok (), ⟨pos + 4, Nat.le_add_right _ _⟩)
  else if wireType = 3 then skipGroupFrom buf pos
  else (.error (.unmatchedGroup wireType), ⟨pos, Nat.le_refl _⟩)
termination_by (buf.length - pos, 1)
decreasing_by exact Prod.Lex.right _ (by decide)

def skipGroupFrom (buf : Bytes) (pos : Nat) : Except WireError Unit × {next : Nat // pos ≤ next} :=
  have tag := readTag_advances buf pos
  match read : readTag buf pos with
  | (.error e, next) => (.error e, ⟨next, by rw [read] at tag; exact tag.1⟩)
  | (.ok (_, wireType), next) =>
    have forward : pos < next ∧ next ≤ buf.length := by rw [read] at tag; exact tag.2 _ rfl
    if wireType = 4 then (.ok (), ⟨next, by omega⟩)
    else
      match skipFieldFrom buf next wireType with
      | (.error e, after) => (.error e, ⟨after.val, by have := after.property; omega⟩)
      | (.ok _, after) =>
        let rest := skipGroupFrom buf after.val
        (rest.1, ⟨rest.2.val, by have := after.property; have := rest.2.property; omega⟩)
termination_by (buf.length - pos, 0)
decreasing_by
  · exact Prod.Lex.left _ _ (by omega)
  · exact Prod.Lex.left _ _ (by have := after.property; omega)

end

def skipField (buf : Bytes) (pos : Nat) (wireType : UInt8) : Except WireError Unit × Nat :=
  ((skipFieldFrom buf pos wireType).1, (skipFieldFrom buf pos wireType).2.val)

theorem skipField_forward (buf : Bytes) (pos : Nat) (wireType : UInt8) :
    pos ≤ (skipField buf pos wireType).2 := (skipFieldFrom buf pos wireType).2.property

inductive FieldHandler (State : Type) where
  | varint (set : UInt64 → State → State)
  | block (set : Bytes → State → State)

def FieldHandler.read {State : Type} (handler : FieldHandler State) (buf : Bytes) (pos : Nat) :
    Except WireError (State → State) × Nat :=
  match handler with
  | .varint set => ((readVarint buf pos).1.map set, (readVarint buf pos).2)
  | .block set => ((readLengthDelimited buf pos).1.map set, (readLengthDelimited buf pos).2)

theorem FieldHandler.read_forward {State : Type} (handler : FieldHandler State) (buf : Bytes)
    (pos : Nat) : pos ≤ (handler.read buf pos).2 := by
  cases handler with
  | varint set => exact (readVarint_advances buf pos).1
  | block set => exact (readLengthDelimited_advances buf pos).1

/-- The fields a message knows, by number and wire type; the decoders skip all others. -/
abbrev Schema (State : Type) := UInt32 → UInt8 → Option (FieldHandler State)

def readField {State : Type} (schema : Schema State) (buf : Bytes) (pos : Nat) (field : UInt32)
    (wireType : UInt8) : Except WireError (State → State) × Nat :=
  match schema field wireType with
  | some handler => handler.read buf pos
  | none => ((skipField buf pos wireType).1.map fun _ => id, (skipField buf pos wireType).2)

theorem readField_forward {State : Type} (schema : Schema State) (buf : Bytes) (pos : Nat)
    (field : UInt32) (wireType : UInt8) : pos ≤ (readField schema buf pos field wireType).2 := by
  unfold readField
  split
  · exact FieldHandler.read_forward _ _ _
  · exact skipField_forward _ _ _

/-- The loop of the top-level decoders: every error is the decoder's. -/
def decodeFieldsFrom {State : Type} (schema : Schema State) (buf : Bytes) (pos : Nat)
    (state : State) : Except WireError State :=
  if pos < buf.length then
    have tag := readTag_advances buf pos
    match read : readTag buf pos with
    | (.error e, _) => .error e
    | (.ok (field, wireType), next) =>
      have forward := readField_forward schema buf next field wireType
      match value : readField schema buf next field wireType with
      | (.error e, _) => .error e
      | (.ok update, after) => decodeFieldsFrom schema buf after (update state)
  else .ok state
termination_by buf.length - pos
decreasing_by
  rw [read] at tag
  rw [value] at forward
  have := (tag.2 _ rfl).1
  dsimp only at *
  omega

/-- The loop of the embedded decoders: an unreadable tag or skipped field ends it, an unreadable
    known field leaves the state and goes on from wherever its reader stopped. -/
def decodeEmbeddedFrom {State : Type} (schema : Schema State) (buf : Bytes) (pos : Nat)
    (state : State) : State :=
  if pos < buf.length then
    have tag := readTag_advances buf pos
    match read : readTag buf pos with
    | (.error _, _) => state
    | (.ok (field, wireType), next) =>
      match schema field wireType with
      | some handler =>
        have forward := handler.read_forward buf next
        match value : handler.read buf next with
        | (.error _, after) => decodeEmbeddedFrom schema buf after state
        | (.ok update, after) => decodeEmbeddedFrom schema buf after (update state)
      | none =>
        have forward := skipField_forward buf next wireType
        match value : skipField buf next wireType with
        | (.error _, _) => state
        | (.ok _, after) => decodeEmbeddedFrom schema buf after state
  else state
termination_by buf.length - pos
decreasing_by
  all_goals
    rw [read] at tag
    rw [value] at forward
    have := (tag.2 _ rfl).1
    dsimp only at *
    omega

end MoshModel
