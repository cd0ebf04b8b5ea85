import MoshClient.Wire.Grammar

namespace MoshModel

variable {State : Type}

def FieldHandler.wireType : FieldHandler State → UInt8
  | .varint _ => 0
  | .block _ => 2

/-- Each known field is read as its wire type says. -/
def Schema.Typed (schema : Schema State) : Prop :=
  ∀ field wireType handler, schema field wireType = some handler → wireType = handler.wireType

/-- What a top-level loop makes of one complete field. -/
def Field.update (schema : Schema State) (field : Field) : State → State :=
  match field.payload with
  | .varint value =>
    match schema (field.key >>> 3).toUInt32 0 with
    | some (.varint set) => set value
    | _ => id
  | .block body =>
    match schema (field.key >>> 3).toUInt32 2 with
    | some (.block set) => set body
    | _ => id
  | .other => id

def updateAll (schema : Schema State) (fields : List Field) (state : State) : State :=
  fields.foldl (fun state field => field.update schema state) state

variable {schema : Schema State} {buf : Bytes} {pos : Nat}

theorem readField_varint (typed : schema.Typed) {bytes after : Bytes} {key value : UInt64}
    (varint : Varint bytes value) (remaining : Remaining buf pos (bytes ++ after)) :
    readField schema buf pos (key >>> 3).toUInt32 0 =
      (.ok (Field.update schema ⟨key, .varint value⟩), pos + bytes.length) := by
  unfold readField Field.update
  dsimp only
  cases known : schema (key >>> 3).toUInt32 0 with
  | none =>
    dsimp only
    rw [skipField_varint varint remaining]
    rfl
  | some handler =>
    cases handler with
    | varint set =>
      dsimp only [FieldHandler.read]
      rw [readVarint_varint varint remaining]
      rfl
    | block set => cases typed _ _ _ known

theorem readField_block (typed : schema.Typed) {length body after : Bytes} {key size : UInt64}
    (varint : Varint length size) (whole : body.length = size.toNat)
    (remaining : Remaining buf pos (length ++ body ++ after)) :
    readField schema buf pos (key >>> 3).toUInt32 2 =
      (.ok (Field.update schema ⟨key, .block body⟩), pos + (length ++ body).length) := by
  unfold readField Field.update
  dsimp only
  cases known : schema (key >>> 3).toUInt32 2 with
  | none =>
    dsimp only
    rw [skipField_block varint whole remaining]
    rfl
  | some handler =>
    cases handler with
    | varint set => cases typed _ _ _ known
    | block set =>
      dsimp only [FieldHandler.read]
      rw [readLengthDelimited_block varint whole remaining]
      rfl

theorem Schema.Typed.unknown (typed : schema.Typed) (field : UInt32) {wireType : UInt8}
    (notVarint : wireType ≠ 0) (notBlock : wireType ≠ 2) : schema field wireType = none := by
  cases known : schema field wireType with
  | none => rfl
  | some handler =>
    have same := typed _ _ _ known
    cases handler with
    | varint set => exact absurd same notVarint
    | block set => exact absurd same notBlock

theorem readField_other (typed : schema.Typed) {content : Bytes} {key : UInt64} {wireType : UInt8}
    (notVarint : wireType ≠ 0) (notBlock : wireType ≠ 2)
    (skipped : skipField buf pos wireType = (.ok (), pos + content.length)) :
    readField schema buf pos (key >>> 3).toUInt32 wireType =
      (.ok (Field.update schema ⟨key, .other⟩), pos + content.length) := by
  unfold readField
  rw [typed.unknown _ notVarint notBlock]
  dsimp only
  rw [skipped]
  rfl

/-- What holds of the cursor and the state before a field is read, and then after it. -/
def Carried (schema : Schema State) (buf : Bytes) (motive : Nat → State → Prop) : Prop :=
  ∀ pos state field wireType start update next, pos < buf.length →
    readTag buf pos = (.ok (field, wireType), start) →
      readField schema buf start field wireType = (.ok update, next) → motive pos state → motive next (update state)

theorem Carried.field {motive : Nat → State → Prop} (carried : Carried schema buf motive)
    {tag content rest after : Bytes} {wireType : Nat} {key : UInt64} {payload : Payload} {fields : List Field}
    (isTag : Tag tag key wireType) (state : State)
    (remaining : Remaining buf pos (tag ++ content ++ rest ++ after))
    (reads : ∀ pos, Remaining buf pos (content ++ (rest ++ after)) →
      readField schema buf pos (key >>> 3).toUInt32 (UInt8.ofNat wireType) =
        (.ok (Field.update schema ⟨key, payload⟩), pos + content.length))
    (onward : ∀ pos state, Remaining buf pos (rest ++ after) → motive pos state →
      motive (pos + rest.length) (updateAll schema fields state))
    (here : motive pos state) :
    motive (pos + (tag ++ content ++ rest).length) (updateAll schema (⟨key, payload⟩ :: fields) state) := by
  rw [List.append_assoc, List.append_assoc] at remaining
  have inside : pos < buf.length := Spans.before_end
    (⟨rfl, by rw [show buf.drop pos = tag ++ _ from remaining, ← show buf.drop _ = _ from remaining.append]⟩ :
      Spans buf pos tag (pos + tag.length)) isTag.1.ne_nil
  have read := carried pos state _ _ _ _ _ inside (readTag_tag isTag remaining) (reads _ remaining.append) here
  have later := onward _ _ remaining.append.append read
  simp only [List.length_append, ← Nat.add_assoc] at later ⊢
  exact later

/-- A loop goes over complete fields with their updates applied in order. -/
theorem Carried.fields {motive : Nat → State → Prop} (carried : Carried schema buf motive) (typed : schema.Typed)
    {bytes : Bytes} {fields : List Field} (complete : Fields bytes fields) (after : Bytes) (pos : Nat)
    (state : State) (remaining : Remaining buf pos (bytes ++ after)) (here : motive pos state) :
    motive (pos + bytes.length) (updateAll schema fields state) := by
  induction complete generalizing after pos state with
  | nil => exact here
  | varint tag varint _ ih =>
    exact carried.field tag state remaining (fun _ => readField_varint typed varint)
      (fun pos state => ih after pos state) here
  | fixed64 tag size _ ih =>
    refine carried.field tag state remaining (fun pos remaining => ?_) (fun pos state => ih after pos state) here
    exact readField_other typed (by decide) (by decide)
      ((skipField_flat buf pos).2.1.trans (skipField_fixed size remaining (by decide)))
  | block tag varint whole _ ih =>
    exact carried.field tag state remaining (fun _ => readField_block typed varint whole)
      (fun pos state => ih after pos state) here
  | group tag nested close _ _ ih =>
    refine carried.field tag state remaining (fun pos remaining => ?_) (fun pos state => ih after pos state) here
    exact readField_other typed (by decide) (by decide) (skipField_nested nested close remaining)
  | fixed32 tag size _ ih =>
    refine carried.field tag state remaining (fun pos remaining => ?_) (fun pos state => ih after pos state) here
    exact readField_other typed (by decide) (by decide)
      ((skipField_flat buf pos).2.2.2.trans (skipField_fixed size remaining (by decide)))

theorem decodeFieldsFrom_fields (typed : schema.Typed) {bytes : Bytes} {fields : List Field}
    (complete : Fields bytes fields) (after : Bytes) (pos : Nat) (state : State)
    (remaining : Remaining buf pos (bytes ++ after)) :
    decodeFieldsFrom schema buf pos state =
      decodeFieldsFrom schema buf (pos + bytes.length) (updateAll schema fields state) := by
  have carried : Carried schema buf fun next out =>
      decodeFieldsFrom schema buf pos state = decodeFieldsFrom schema buf next out := by
    intro _ state _ _ _ _ _ inside tag value here
    rw [here, decodeFieldsFrom_step state inside tag value]
  exact carried.fields typed complete after pos state remaining rfl

theorem Field.update_unread {content : Bytes} {payload : Payload} {key : UInt64} {wireType : UInt8}
    (isContent : Content wireType.toNat content payload)
    (unknown : schema (key >>> 3).toUInt32 wireType = none) : Field.update schema ⟨key, payload⟩ = id := by
  unfold Field.update
  cases payload with
  | varint value =>
    have kind : wireType = 0 := UInt8.toNat_inj.mp (isContent.varintType value rfl)
    rw [kind] at unknown
    dsimp only
    rw [unknown]
  | block body =>
    have kind : wireType = 2 := UInt8.toNat_inj.mp (isContent.blockType body rfl)
    rw [kind] at unknown
    dsimp only
    rw [unknown]
  | other => rfl

theorem readField_sound (typed : schema.Typed) {key : UInt64} {wireType : UInt8} {next : Nat}
    {update : State → State}
    (read : readField schema buf pos (key >>> 3).toUInt32 wireType = (.ok update, next)) :
    ∃ content payload, Content wireType.toNat content payload ∧ Spans buf pos content next ∧
      update = Field.update schema ⟨key, payload⟩ := by
  unfold readField at read
  cases known : schema (key >>> 3).toUInt32 wireType with
  | some handler =>
    have same := typed _ _ _ known
    rw [known] at read
    cases handler with
    | varint set =>
      obtain rfl : wireType = 0 := same
      obtain ⟨value, number, rfl⟩ := read_of_map read
      obtain ⟨bytes, varint, spans⟩ := readVarint_sound number
      refine ⟨bytes, _, .varint varint, spans, ?_⟩
      unfold Field.update
      dsimp only
      rw [known]
    | block set =>
      obtain rfl : wireType = 2 := same
      obtain ⟨body, block, rfl⟩ := read_of_map read
      obtain ⟨length, size, varint, whole, spans⟩ := readLengthDelimited_sound block
      refine ⟨length ++ body, _, .block varint whole, spans, ?_⟩
      unfold Field.update
      dsimp only
      rw [known]
  | none =>
    rw [known] at read
    obtain ⟨done, skipped, rfl⟩ := read_of_map read
    obtain ⟨content, payload, isContent, spans⟩ := skipField_sound (skipGroup_sound buf pos _) skipped
    exact ⟨content, payload, isContent, spans, (Field.update_unread isContent known).symm⟩

theorem decodeFieldsFrom_cases {state out : State} (decoded : decodeFieldsFrom schema buf pos state = .ok out) :
    (buf.length ≤ pos ∧ out = state) ∨
      (pos < buf.length ∧ ∃ field wireType next update after,
        readTag buf pos = (.ok (field, wireType), next) ∧
          readField schema buf next field wireType = (.ok update, after) ∧
          decodeFieldsFrom schema buf after (update state) = .ok out) := by
  by_cases inside : pos < buf.length
  · right
    refine ⟨inside, ?_⟩
    cases tag : readTag buf pos with
    | mk result next =>
      rw [decodeFieldsFrom, if_pos inside] at decoded
      split at decoded
      · cases decoded
      · rename_i field wireType start read
        rw [tag] at read
        split at decoded
        · cases decoded
        · rename_i update after value
          cases read
          exact ⟨field, wireType, _, update, after, rfl, value, decoded⟩
  · rw [decodeFieldsFrom, if_neg inside] at decoded
    cases decoded
    exact .inl ⟨Nat.le_of_not_lt inside, rfl⟩

theorem decodeFieldsFrom_sound (typed : schema.Typed) (pos : Nat) (state out : State)
    (decoded : decodeFieldsFrom schema buf pos state = .ok out) :
    ∃ fields, Fields (buf.drop pos) fields ∧ out = updateAll schema fields state := by
  generalize left : buf.length - pos = size
  induction size using Nat.strongRecOn generalizing pos state with
  | ind size ih =>
    rcases decodeFieldsFrom_cases decoded with ⟨beyond, rfl⟩ |
      ⟨inside, field, wireType, next, update, after, tag, value, rest⟩
    · rw [List.drop_eq_nil_of_le beyond]
      exact ⟨[], .nil, rfl⟩
    · obtain ⟨bytes, key, isTag, rfl, spans⟩ := readTag_sound tag
      obtain ⟨content, payload, isContent, passed, rfl⟩ := readField_sound typed value
      have forward := List.length_pos_iff.mpr isTag.1.ne_nil
      have moved := spans.moved
      have later := passed.moved
      obtain ⟨fields, complete, rfl⟩ := ih _ (by omega) after _ rest rfl
      rw [spans.read, passed.read, ← List.append_assoc]
      exact ⟨_, isContent.completes _ _ _ _ isTag complete, rfl⟩

theorem decodeFieldsFrom_iff (typed : schema.Typed) (pos : Nat) (state out : State) :
    decodeFieldsFrom schema buf pos state = .ok out ↔
      ∃ fields, Fields (buf.drop pos) fields ∧ out = updateAll schema fields state := by
  constructor
  · exact decodeFieldsFrom_sound typed pos state out
  · rintro ⟨fields, complete, rfl⟩
    have remaining : Remaining buf pos (buf.drop pos) := rfl
    rw [decodeFieldsFrom_fields typed complete [] pos state remaining.pad]
    exact decodeFieldsFrom_done _ remaining.pad.append

end MoshModel
