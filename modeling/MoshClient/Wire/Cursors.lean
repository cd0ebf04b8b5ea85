import MoshClient.Wire.EmbeddedTail

namespace MoshModel

variable {State Value : Type} {schema : Schema State} {buf : Bytes} {pos : Nat}

/-- Where a reader that starts at `pos` leaves its cursor. -/
structure Within (buf : Bytes) (pos : Nat) (read : Except WireError Value × Nat) : Prop where
  forward : pos ≤ read.2
  inside : read.2 ≤ buf.length
  beyond : ∀ value, read.1 = .ok value → pos < read.2

theorem Within.of_advances {read : Except WireError Value × Nat} (advances : Advances buf pos read)
    (inside : read.2 ≤ buf.length) : Within buf pos read :=
  ⟨advances.1, inside, fun value ok => (advances.2 value ok).1⟩

theorem Within.map {Other : Type} {read : Except WireError Value × Nat} (within : Within buf pos read)
    (f : Value → Other) : Within buf pos (read.1.map f, read.2) where
  forward := within.forward
  inside := within.inside
  beyond value ok := by
    cases result : read.1 with
    | error e =>
      rw [result] at ok
      cases ok
    | ok value => exact within.beyond value result

theorem readVarint_within (inside : pos ≤ buf.length) : Within buf pos (readVarint buf pos) :=
  .of_advances (readVarint_advances buf pos) (readVarint_stop buf pos inside).1

theorem readTag_within (inside : pos ≤ buf.length) : Within buf pos (readTag buf pos) := by
  have varint := readVarint_within inside
  apply Within.of_advances (readTag_advances buf pos)
  unfold readTag
  cases read : readVarint buf pos with
  | mk result next =>
    rw [read] at varint
    cases result <;> exact varint.inside

theorem readLengthDelimited_within (inside : pos ≤ buf.length) : Within buf pos (readLengthDelimited buf pos) := by
  have varint := readVarint_within inside
  apply Within.of_advances (readLengthDelimited_advances buf pos)
  unfold readLengthDelimited
  cases read : readVarint buf pos with
  | mk result next =>
    rw [read] at varint
    cases result with
    | error e => exact varint.inside
    | ok len =>
      dsimp only
      split
      · exact varint.inside
      · omega

theorem skipFixed_within {width : Nat} (positive : 0 < width) (inside : pos ≤ buf.length) :
    Within buf pos (if buf.length < pos + width then ((.error .truncated, pos) : Except WireError Unit × Nat)
      else (.ok (), pos + width)) := by
  split
  · exact ⟨Nat.le_refl _, inside, nofun⟩
  · exact ⟨by dsimp only; omega, by dsimp only; omega, fun _ _ => by dsimp only; omega⟩

theorem skipField_within_of_group (inside : pos ≤ buf.length) (wireType : UInt8)
    (group : Within buf pos (skipGroup buf pos)) : Within buf pos (skipField buf pos wireType) := by
  obtain ⟨zero, one, two, five⟩ := skipField_flat buf pos
  by_cases isZero : wireType = 0
  · rw [isZero, zero]
    exact (readVarint_within inside).map _
  by_cases isOne : wireType = 1
  · rw [isOne, one]
    exact skipFixed_within (by decide) inside
  by_cases isTwo : wireType = 2
  · rw [isTwo, two]
    exact (readLengthDelimited_within inside).map _
  by_cases isFive : wireType = 5
  · rw [isFive, five]
    exact skipFixed_within (by decide) inside
  by_cases isThree : wireType = 3
  · rw [isThree, skipField_group]
    exact group
  · unfold skipField
    rw [skipFieldFrom]
    simp only [isZero, isOne, isTwo, isFive, isThree, if_false]
    exact ⟨Nat.le_refl _, inside, fun _ ok => by cases ok⟩

theorem skipGroup_within (inside : pos ≤ buf.length) : Within buf pos (skipGroup buf pos) := by
  generalize left : buf.length - pos = size
  induction size using Nat.strongRecOn generalizing pos with
  | ind size ih =>
    have tag := readTag_within inside
    rw [skipGroup_eq]
    cases read : readTag buf pos with
    | mk result next =>
      rw [read] at tag
      cases result with
      | error e => exact ⟨tag.forward, tag.inside, nofun⟩
      | ok key =>
        have beyond : pos < next := tag.beyond key rfl
        have bounded : next ≤ buf.length := tag.inside
        dsimp only
        split
        · exact ⟨Nat.le_of_lt beyond, bounded, fun _ _ => beyond⟩
        · have skipped := skipField_within_of_group bounded key.2 (ih _ (by omega) bounded rfl)
          cases value : skipField buf next key.2 with
          | mk result after =>
            rw [value] at skipped
            have onward : next ≤ after := skipped.forward
            have room : after ≤ buf.length := skipped.inside
            cases result with
            | error e => exact ⟨Nat.le_of_lt (Nat.lt_of_lt_of_le beyond onward), room, nofun⟩
            | ok done =>
              have rest := ih _ (by omega) room rfl
              exact ⟨by have := rest.forward; dsimp only; omega, rest.inside,
                fun _ _ => by have := rest.forward; dsimp only; omega⟩

theorem skipField_within (inside : pos ≤ buf.length) (wireType : UInt8) :
    Within buf pos (skipField buf pos wireType) :=
  skipField_within_of_group inside wireType (skipGroup_within inside)

theorem readLengthDelimited_slice {bytes : Bytes} (inside : pos ≤ buf.length)
    (ok : (readLengthDelimited buf pos).1 = .ok bytes) : ∃ start, pos < start ∧ start ≤ (readLengthDelimited buf pos).2 ∧
      (readLengthDelimited buf pos).2 ≤ buf.length ∧ bytes = (buf.take (readLengthDelimited buf pos).2).drop start := by
  have varint := readVarint_within inside
  have whole := readLengthDelimited_within inside
  unfold readLengthDelimited at ok whole ⊢
  cases read : readVarint buf pos with
  | mk result next =>
    rw [read] at ok varint whole
    cases result with
    | error e => cases ok
    | ok len =>
      have beyond : pos < next := varint.beyond len rfl
      dsimp only at ok whole ⊢
      split at ok
      · cases ok
      · rename_i room
        rw [if_neg room] at whole ⊢
        cases ok
        exact ⟨next, beyond, Nat.le_add_right _ _, whole.inside, rfl⟩

-- From the head of a loop to the next one the code stands at.

def FieldsStep (schema : Schema State) (buf : Bytes) (pos after : Nat) : Prop :=
  pos < buf.length ∧ ∃ field wireType next update, readTag buf pos = (.ok (field, wireType), next) ∧
    readField schema buf next field wireType = (.ok update, after)

def EmbeddedStep (schema : Schema State) (buf : Bytes) (pos after : Nat) : Prop :=
  pos < buf.length ∧ ∃ update, embeddedRound schema buf pos = some (update, after)

/-- A group within the group has a loop of its own, in a call of its own. -/
inductive GroupStep (buf : Bytes) : Nat → Nat → Prop
  | nested {pos next : Nat} {field : UInt32} (tag : readTag buf pos = (.ok (field, 3), next)) : GroupStep buf pos next
  | field {pos next after : Nat} {field : UInt32} {wireType : UInt8}
    (tag : readTag buf pos = (.ok (field, wireType), next)) (other : wireType ≠ 4)
    (value : skipField buf next wireType = (.ok (), after)) : GroupStep buf pos after

theorem FieldsStep.decode {after : Nat} (step : FieldsStep schema buf pos after) : ∃ update : State → State,
    ∀ state, decodeFieldsFrom schema buf pos state = decodeFieldsFrom schema buf after (update state) := by
  obtain ⟨inside, field, wireType, next, update, tag, value⟩ := step
  exact ⟨update, fun state => decodeFieldsFrom_step state inside tag value⟩

theorem EmbeddedStep.decode {after : Nat} (step : EmbeddedStep schema buf pos after) : ∃ update : State → State,
    ∀ state, decodeEmbeddedFrom schema buf pos state = decodeEmbeddedFrom schema buf after (update state) := by
  obtain ⟨inside, update, round⟩ := step
  refine ⟨update, fun state => ?_⟩
  rw [decodeEmbeddedFrom_round pos state inside, round]

/-- Every step goes forward and stays in the buffer. -/
def Climbs (buf : Bytes) (step : Nat → Nat → Prop) : Prop :=
  ∀ pos after, pos ≤ buf.length → step pos after → pos < after ∧ after ≤ buf.length

/-- However often a loop that starts at `pos` is gone round, it is in the buffer and gone round at most once for
each byte. -/
def Ends (buf : Bytes) (pos : Nat) (step : Nat → Nat → Prop) : Prop :=
  ∀ visited, List.IsChain step (pos :: visited) →
    (∀ cursor ∈ visited, pos < cursor ∧ cursor ≤ buf.length) ∧ visited.length ≤ buf.length - pos

theorem Climbs.ends {step : Nat → Nat → Prop} (climbs : Climbs buf step) (inside : pos ≤ buf.length) :
    Ends buf pos step := by
  intro visited chain
  induction visited generalizing pos with
  | nil => exact ⟨nofun, Nat.zero_le _⟩
  | cons after visited ih =>
    obtain ⟨first, rest⟩ := List.isChain_cons_cons.mp chain
    obtain ⟨beyond, room⟩ := climbs pos after inside first
    obtain ⟨later, short⟩ := ih room rest
    constructor
    · rw [List.forall_mem_cons]
      exact ⟨⟨beyond, room⟩, fun cursor member => ⟨Nat.lt_trans beyond (later cursor member).1, (later cursor member).2⟩⟩
    · rw [List.length_cons]
      omega

theorem readField_within (schema : Schema State) (inside : pos ≤ buf.length) (field : UInt32) (wireType : UInt8) :
    Within buf pos (readField schema buf pos field wireType) := by
  unfold readField
  cases schema field wireType with
  | none => exact (skipField_within inside wireType).map _
  | some handler =>
    cases handler with
    | varint set => exact (readVarint_within inside).map set
    | block set => exact (readLengthDelimited_within inside).map set

theorem fieldsStep_climbs : Climbs buf (FieldsStep schema buf) := by
  rintro pos after inside ⟨-, field, wireType, next, update, tag, value⟩
  have head := readTag_within inside
  rw [tag] at head
  have body := readField_within schema head.inside field wireType
  rw [value] at body
  exact ⟨Nat.lt_of_lt_of_le (head.beyond _ rfl) body.forward, body.inside⟩

theorem embeddedStep_climbs : Climbs buf (EmbeddedStep schema buf) := by
  rintro pos after inside ⟨-, update, round⟩
  refine ⟨embeddedRound_forward round, ?_⟩
  have head := readTag_within inside
  unfold embeddedRound at round
  cases tag : readTag buf pos with
  | mk result next =>
    rw [tag] at head round
    cases result with
    | error e => cases round
    | ok key =>
      have body := readField_within schema head.inside key.1 key.2
      dsimp only at body round
      cases value : readField schema buf next key.1 key.2 with
      | mk result stop =>
        rw [value] at body round
        have room : stop ≤ buf.length := body.inside
        cases result with
        | error e =>
          dsimp only at round
          split at round
          · cases round
            exact room
          · cases round
        | ok update =>
          cases round
          exact room

theorem groupStep_climbs : Climbs buf (GroupStep buf) := by
  intro pos after inside step
  have head := readTag_within inside
  cases step with
  | nested tag =>
    rw [tag] at head
    exact ⟨head.beyond _ rfl, head.inside⟩
  | field tag other value =>
    rw [tag] at head
    have body := skipField_within head.inside ‹UInt8›
    rw [value] at body
    exact ⟨Nat.lt_of_lt_of_le (head.beyond _ rfl) body.forward, body.inside⟩

/-- An end past the address space is an end past the buffer. -/
theorem readLengthDelimited_overflow {len : UInt64} {next : Nat} (addressable : buf.length ≤ isizeMax)
    (read : readVarint buf pos = (.ok len, next)) (wraps : 2 ^ 64 ≤ next + len.toNat) :
    (readLengthDelimited buf pos).1 = .error .badLength := by
  unfold isizeMax at addressable
  rw [readLengthDelimited, read]
  dsimp only
  rw [if_pos (by omega)]

theorem cursors_advance (buf : Bytes) (pos : Nat) (inside : pos ≤ buf.length) (addressable : buf.length ≤ isizeMax) :
    (Within buf pos (readVarint buf pos) ∧ Within buf pos (readTag buf pos) ∧
      Within buf pos (readLengthDelimited buf pos) ∧ ∀ wireType, Within buf pos (skipField buf pos wireType)) ∧
    (∀ bytes, (readLengthDelimited buf pos).1 = .ok bytes → ∃ start stop, start ≤ stop ∧ stop ≤ buf.length ∧
      bytes = (buf.take stop).drop start) ∧
    pos + 8 < 2 ^ 64 ∧
    (∀ len next, readVarint buf pos = (.ok len, next) → 2 ^ 64 ≤ next + len.toNat →
      (readLengthDelimited buf pos).1 = .error .badLength) ∧
    Ends buf pos (GroupStep buf) ∧
    ∀ (State : Type) (schema : Schema State), Ends buf pos (FieldsStep schema buf) ∧
      Ends buf pos (EmbeddedStep schema buf) := by
  have room : pos + 8 < 2 ^ 64 := by
    unfold isizeMax at addressable
    omega
  refine ⟨⟨readVarint_within inside, readTag_within inside, readLengthDelimited_within inside,
    skipField_within inside⟩, ?_, room, ?_, groupStep_climbs.ends inside, ?_⟩
  · intro bytes ok
    obtain ⟨start, -, ordered, bounded, slice⟩ := readLengthDelimited_slice inside ok
    exact ⟨start, _, ordered, bounded, slice⟩
  · intro len next read wraps
    exact readLengthDelimited_overflow addressable read wraps
  · intro State schema
    exact ⟨fieldsStep_climbs.ends inside, embeddedStep_climbs.ends inside⟩

theorem cursors_advance_groups :
    Ends [0x0B, 0x0B, 0x0B] 1 (GroupStep [0x0B, 0x0B, 0x0B]) :=
  (cursors_advance [0x0B, 0x0B, 0x0B] 1 (by decide) (by decide)).2.2.2.2.1

end MoshModel
