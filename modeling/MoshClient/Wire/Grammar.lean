import MoshClient.Wire.RoundTrip

namespace MoshModel

/-- A base-128 number of at most ten bytes, with the 64 bits of it that are kept. -/
structure Varint (bytes : Bytes) (value : UInt64) : Prop where
  terminated : Base128.Terminated bytes
  short : bytes.length ≤ 10
  kept : value = UInt64.ofNat (Base128.value bytes)

def Tag (bytes : Bytes) (key : UInt64) (wireType : Nat) : Prop :=
  Varint bytes key ∧ key.toNat % 8 = wireType

inductive Payload where
  | varint (value : UInt64)
  | block (body : Bytes)
  | other
deriving DecidableEq

structure Field where
  key : UInt64
  payload : Payload
deriving DecidableEq

def Field.number (field : Field) : Nat := field.key.toNat / 8

/-- A concatenation of complete fields, and the fields. -/
inductive Fields : Bytes → List Field → Prop
  | nil : Fields [] []
  | varint {tag number rest : Bytes} {key value : UInt64} {fields : List Field} :
      Tag tag key 0 → Varint number value → Fields rest fields →
        Fields (tag ++ number ++ rest) (⟨key, .varint value⟩ :: fields)
  | fixed64 {tag eight rest : Bytes} {key : UInt64} {fields : List Field} :
      Tag tag key 1 → eight.length = 8 → Fields rest fields →
        Fields (tag ++ eight ++ rest) (⟨key, .other⟩ :: fields)
  | block {tag length body rest : Bytes} {key size : UInt64} {fields : List Field} :
      Tag tag key 2 → Varint length size → body.length = size.toNat → Fields rest fields →
        Fields (tag ++ (length ++ body) ++ rest) (⟨key, .block body⟩ :: fields)
  | group {tag inner close rest : Bytes} {key closeKey : UInt64} {nested fields : List Field} :
      Tag tag key 3 → Fields inner nested → Tag close closeKey 4 → Fields rest fields →
        Fields (tag ++ (inner ++ close) ++ rest) (⟨key, .other⟩ :: fields)
  | fixed32 {tag four rest : Bytes} {key : UInt64} {fields : List Field} :
      Tag tag key 5 → four.length = 4 → Fields rest fields →
        Fields (tag ++ four ++ rest) (⟨key, .other⟩ :: fields)

/-- What may stand between a tag of this wire type and the fields after it. -/
structure Content (wireType : Nat) (content : Bytes) (payload : Payload) : Prop where
  completes : ∀ (tag rest : Bytes) (key : UInt64) (fields : List Field), Tag tag key wireType →
    Fields rest fields → Fields (tag ++ content ++ rest) (⟨key, payload⟩ :: fields)
  varintType : ∀ value, payload = .varint value → wireType = 0
  blockType : ∀ body, payload = .block body → wireType = 2

/-- A reader that stood at `pos` and stands at `next` has these bytes behind it. -/
structure Spans (buf : Bytes) (pos : Nat) (bytes : Bytes) (next : Nat) : Prop where
  moved : next = pos + bytes.length
  read : buf.drop pos = bytes ++ buf.drop next

theorem Spans.trans {buf left right : Bytes} {pos middle next : Nat} (first : Spans buf pos left middle)
    (second : Spans buf middle right next) : Spans buf pos (left ++ right) next := by
  refine ⟨?_, ?_⟩
  · rw [second.moved, first.moved, List.length_append, Nat.add_assoc]
  · rw [first.read, second.read, List.append_assoc]

theorem Spans.remaining {buf bytes : Bytes} {pos next : Nat} (spans : Spans buf pos bytes next) :
    Remaining buf pos (bytes ++ buf.drop next) := spans.read

theorem Spans.take {buf : Bytes} {pos count : Nat} (room : pos + count ≤ buf.length) :
    Spans buf pos ((buf.drop pos).take count) (pos + count) ∧ ((buf.drop pos).take count).length = count := by
  have size : ((buf.drop pos).take count).length = count := by
    rw [List.length_take, List.length_drop]
    omega
  refine ⟨⟨by rw [size], ?_⟩, size⟩
  rw [← List.drop_drop, List.take_append_drop]

theorem Spans.before_end {buf bytes : Bytes} {pos next : Nat} (spans : Spans buf pos bytes next)
    (some_byte : bytes ≠ []) : pos < buf.length := by
  have length := congrArg List.length spans.read
  have := List.length_pos_iff.mpr some_byte
  rw [List.length_append, List.length_drop] at length
  omega

theorem Varint.ne_nil {bytes : Bytes} {value : UInt64} (varint : Varint bytes value) : bytes ≠ [] := by
  rintro rfl
  exact varint.terminated

theorem readVarint_varint {buf bytes rest : Bytes} {pos : Nat} {value : UInt64} (varint : Varint bytes value)
    (remaining : Remaining buf pos (bytes ++ rest)) :
    readVarint buf pos = (.ok value, pos + bytes.length) := by
  rw [readVarint, readVarintFrom_terminated buf rest bytes 10 pos 0 remaining varint.terminated varint.short
    (Nat.le_refl _) (by decide), varint.kept]
  simp

theorem readVarintFrom_sound (buf : Bytes) (rounds pos next : Nat) (value result : UInt64)
    (read : readVarintFrom buf rounds value pos = (.ok result, next)) :
    ∃ bytes, Base128.Terminated bytes ∧ bytes.length ≤ rounds ∧ Spans buf pos bytes next := by
  induction rounds generalizing value pos with
  | zero => cases read
  | succ rounds ih =>
    rw [readVarintFrom] at read
    cases found : buf[pos]? with
    | none =>
      rw [found] at read
      cases read
    | some byte =>
      obtain ⟨inside, same⟩ := List.getElem?_eq_some_iff.mp found
      have first : Spans buf pos [byte] (pos + 1) := by
        refine ⟨rfl, ?_⟩
        rw [List.drop_eq_getElem_cons inside, same]
        rfl
      rw [found] at read
      dsimp only at read
      split at read
      · rename_i last
        cases read
        exact ⟨[byte], (cont_bit byte).mp last, by simp, first⟩
      · rename_i continued
        obtain ⟨bytes, terminated, short, spans⟩ := ih _ _ read
        have high : 128 ≤ byte.toNat := Nat.le_of_not_lt (mt (cont_bit byte).mpr continued)
        exact ⟨byte :: bytes, Base128.terminated_cons high terminated, by simpa using short, first.trans spans⟩

theorem readVarint_sound {buf : Bytes} {pos next : Nat} {value : UInt64}
    (read : readVarint buf pos = (.ok value, next)) :
    ∃ bytes, Varint bytes value ∧ Spans buf pos bytes next := by
  obtain ⟨bytes, terminated, short, spans⟩ := readVarintFrom_sound buf 10 pos next 0 value read
  have varint : Varint bytes (UInt64.ofNat (Base128.value bytes)) := ⟨terminated, short, rfl⟩
  have again := readVarint_varint varint spans.remaining
  rw [read] at again
  cases again
  exact ⟨bytes, varint, spans⟩

theorem key_kind (key : UInt64) : (key &&& 0x7).toUInt8 = UInt8.ofNat (key.toNat % 8) := by
  apply UInt8.toNat_inj.mp
  have low := Nat.and_two_pow_sub_one_eq_mod key.toNat 3
  simp only [Nat.reducePow, Nat.add_one_sub_one] at low
  rw [UInt64.toNat_toUInt8, UInt64.toNat_and, UInt8.toNat_ofNat']
  simp only [UInt64.reduceToNat, low]

theorem readTag_tag {buf bytes rest : Bytes} {pos wireType : Nat} {key : UInt64} (tag : Tag bytes key wireType)
    (remaining : Remaining buf pos (bytes ++ rest)) :
    readTag buf pos = (.ok ((key >>> 3).toUInt32, UInt8.ofNat wireType), pos + bytes.length) := by
  rw [readTag, readVarint_varint tag.1 remaining]
  simp only [key_kind, tag.2]

theorem readTag_sound {buf : Bytes} {pos next : Nat} {field : UInt32} {wireType : UInt8}
    (read : readTag buf pos = (.ok (field, wireType), next)) :
    ∃ bytes key, Tag bytes key wireType.toNat ∧ field = (key >>> 3).toUInt32 ∧ Spans buf pos bytes next := by
  unfold readTag at read
  cases varint : readVarint buf pos with
  | mk result after =>
    rw [varint] at read
    cases result with
    | error e => cases read
    | ok key =>
      cases read
      obtain ⟨bytes, number, spans⟩ := readVarint_sound varint
      refine ⟨bytes, key, ⟨number, ?_⟩, rfl, spans⟩
      rw [key_kind, UInt8.toNat_ofNat']
      omega

theorem readLengthDelimited_block {buf length body rest : Bytes} {pos : Nat} {size : UInt64}
    (varint : Varint length size) (whole : body.length = size.toNat)
    (remaining : Remaining buf pos (length ++ body ++ rest)) :
    readLengthDelimited buf pos = (.ok body, pos + (length ++ body).length) := by
  rw [List.append_assoc] at remaining
  have after := remaining.append
  have room := after.length
  have some_byte := List.length_pos_iff.mpr varint.ne_nil
  have total := remaining.length
  rw [List.length_append, List.length_append] at total
  rw [readLengthDelimited, readVarint_varint varint remaining]
  dsimp only
  rw [← whole, if_neg (by omega), List.drop_take, show buf.drop _ = body ++ rest from after,
    Nat.add_sub_cancel_left, List.take_left, List.length_append, Nat.add_assoc]

theorem readLengthDelimited_sound {buf body : Bytes} {pos next : Nat}
    (read : readLengthDelimited buf pos = (.ok body, next)) :
    ∃ length size, Varint length size ∧ body.length = size.toNat ∧ Spans buf pos (length ++ body) next := by
  unfold readLengthDelimited at read
  cases number : readVarint buf pos with
  | mk result after =>
    rw [number] at read
    cases result with
    | error e => cases read
    | ok size =>
      dsimp only at read
      split at read
      · cases read
      · rename_i inside
        cases read
        obtain ⟨length, varint, spans⟩ := readVarint_sound number
        obtain ⟨rest, whole⟩ := Spans.take (Nat.le_of_not_lt inside)
        rw [List.drop_take, Nat.add_sub_cancel_left]
        exact ⟨length, size, varint, whole, spans.trans rest⟩

/-- `skip_field` at wire type 3: its loop over the fields of a group. -/
def skipGroup (buf : Bytes) (pos : Nat) : Except WireError Unit × Nat :=
  ((skipGroupFrom buf pos).1, (skipGroupFrom buf pos).2.val)

theorem skipGroup_eq (buf : Bytes) (pos : Nat) :
    skipGroup buf pos =
      match readTag buf pos with
      | (.error e, next) => (.error e, next)
      | (.ok (_, wireType), next) =>
        if wireType = 4 then (.ok (), next)
        else
          match skipField buf next wireType with
          | (.error e, after) => (.error e, after)
          | (.ok _, after) => skipGroup buf after := by
  unfold skipGroup
  rw [skipGroupFrom]
  split
  · rename_i read
    conv_rhs => rw [read]
  · rename_i wireType next read
    conv_rhs => rw [read]
    dsimp only
    by_cases close : wireType = 4
    · rw [if_pos close, if_pos close]
    · rw [if_neg close, if_neg close]
      unfold skipField
      cases skipFieldFrom buf next wireType with
      | mk result after => cases result <;> rfl

theorem skipField_group (buf : Bytes) (pos : Nat) : skipField buf pos 3 = skipGroup buf pos := by
  unfold skipField skipGroup
  rw [skipFieldFrom]
  rfl

theorem read_of_map {Value Passed : Type} {read : Except WireError Value × Nat} {f : Value → Passed}
    {passed : Passed} {next : Nat} (mapped : (read.1.map f, read.2) = (.ok passed, next)) :
    ∃ value, read = (.ok value, next) ∧ f value = passed := by
  obtain ⟨result, after⟩ := read
  cases result with
  | error e => cases mapped
  | ok value =>
    cases mapped
    exact ⟨value, rfl, rfl⟩

theorem skipField_flat (buf : Bytes) (pos : Nat) :
    skipField buf pos 0 = ((readVarint buf pos).1.map fun _ => (), (readVarint buf pos).2) ∧
      skipField buf pos 1 = (if buf.length < pos + 8 then (.error .truncated, pos) else (.ok (), pos + 8)) ∧
      skipField buf pos 2 =
        ((readLengthDelimited buf pos).1.map fun _ => (), (readLengthDelimited buf pos).2) ∧
      skipField buf pos 5 = (if buf.length < pos + 4 then (.error .truncated, pos) else (.ok (), pos + 4)) := by
  unfold skipField
  refine ⟨?_, ?_, ?_, ?_⟩
  · rw [skipFieldFrom]
    rfl
  · rw [skipFieldFrom, if_neg (by decide), if_pos rfl]
    split <;> rfl
  · rw [skipFieldFrom]
    rfl
  · rw [skipFieldFrom, if_neg (by decide), if_neg (by decide), if_neg (by decide), if_pos rfl]
    split <;> rfl

theorem Content.varint {bytes : Bytes} {value : UInt64} (varint : Varint bytes value) :
    Content 0 bytes (.varint value) :=
  ⟨fun _ _ _ _ tag rest => .varint tag varint rest, fun _ _ => rfl, nofun⟩

theorem Content.block {length body : Bytes} {size : UInt64} (varint : Varint length size)
    (whole : body.length = size.toNat) : Content 2 (length ++ body) (.block body) :=
  ⟨fun _ _ _ _ tag rest => .block tag varint whole rest, nofun, fun _ _ => rfl⟩

theorem fixed_sound {buf : Bytes} {pos next width : Nat}
    (read : (if buf.length < pos + width then (.error .truncated, pos) else (.ok (), pos + width)) =
      ((.ok (), next) : Except WireError Unit × Nat)) :
    ∃ bytes : Bytes, bytes.length = width ∧ Spans buf pos bytes next := by
  split at read
  · cases read
  · rename_i inside
    cases read
    obtain ⟨spans, size⟩ := Spans.take (Nat.le_of_not_lt inside)
    exact ⟨_, size, spans⟩

theorem skipField_sound {buf : Bytes} {pos next : Nat} {wireType : UInt8}
    (group : skipGroup buf pos = (.ok (), next) →
      ∃ inner fields close key, Fields inner fields ∧ Tag close key 4 ∧ Spans buf pos (inner ++ close) next)
    (read : skipField buf pos wireType = (.ok (), next)) :
    ∃ content payload, Content wireType.toNat content payload ∧ Spans buf pos content next := by
  obtain ⟨zero, one, two, five⟩ := skipField_flat buf pos
  by_cases isZero : wireType = 0
  · subst isZero
    rw [zero] at read
    obtain ⟨value, number, -⟩ := read_of_map read
    obtain ⟨bytes, varint, spans⟩ := readVarint_sound number
    exact ⟨bytes, _, .varint varint, spans⟩
  by_cases isOne : wireType = 1
  · subst isOne
    obtain ⟨bytes, size, spans⟩ := fixed_sound (one.symm.trans read)
    exact ⟨bytes, .other, ⟨fun _ _ _ _ tag rest => .fixed64 tag size rest, nofun, nofun⟩, spans⟩
  by_cases isTwo : wireType = 2
  · subst isTwo
    rw [two] at read
    obtain ⟨body, block, -⟩ := read_of_map read
    obtain ⟨length, size, varint, whole, spans⟩ := readLengthDelimited_sound block
    exact ⟨length ++ body, _, .block varint whole, spans⟩
  by_cases isFive : wireType = 5
  · subst isFive
    obtain ⟨bytes, size, spans⟩ := fixed_sound (five.symm.trans read)
    exact ⟨bytes, .other, ⟨fun _ _ _ _ tag rest => .fixed32 tag size rest, nofun, nofun⟩, spans⟩
  by_cases isThree : wireType = 3
  · subst isThree
    rw [skipField_group] at read
    obtain ⟨inner, fields, close, key, nested, closed, spans⟩ := group read
    exact ⟨inner ++ close, .other,
      ⟨fun _ _ _ _ tag rest => .group tag nested closed rest, nofun, nofun⟩, spans⟩
  · unfold skipField at read
    rw [skipFieldFrom] at read
    simp only [isZero, isOne, isTwo, isFive, isThree, if_false] at read
    cases read

theorem skipGroup_sound (buf : Bytes) (pos next : Nat) (read : skipGroup buf pos = (.ok (), next)) :
    ∃ inner fields close key, Fields inner fields ∧ Tag close key 4 ∧ Spans buf pos (inner ++ close) next := by
  generalize left : buf.length - pos = size
  induction size using Nat.strongRecOn generalizing pos next with
  | ind size ih =>
    rw [skipGroup_eq] at read
    cases tagged : readTag buf pos with
    | mk result start =>
      rw [tagged] at read
      cases result with
      | error e => cases read
      | ok tag =>
        obtain ⟨field, wireType⟩ := tag
        obtain ⟨bytes, key, isTag, -, spans⟩ := readTag_sound tagged
        have before := spans.before_end isTag.1.ne_nil
        have forward := List.length_pos_iff.mpr isTag.1.ne_nil
        have moved := spans.moved
        dsimp only at read
        by_cases close : wireType = 4
        · rw [if_pos close] at read
          cases read
          subst close
          exact ⟨[], [], bytes, key, .nil, isTag, spans⟩
        · rw [if_neg close] at read
          cases skipped : skipField buf start wireType with
          | mk result after =>
            rw [skipped] at read
            cases result with
            | error e => cases read
            | ok done =>
              have later := skipField_forward buf start wireType
              rw [skipped] at later
              dsimp only at later read
              obtain ⟨content, payload, isContent, passed⟩ := skipField_sound
                (fun read => ih _ (by omega) start after read rfl) skipped
              obtain ⟨inner, fields, last, closeKey, nested, closed, rest⟩ := ih _ (by omega) after next read rfl
              refine ⟨bytes ++ content ++ inner, _, last, closeKey, isContent.completes _ _ _ _ isTag nested, closed, ?_⟩
              rw [List.append_assoc]
              exact (spans.trans passed).trans rest

theorem skipField_varint {buf bytes after : Bytes} {pos : Nat} {value : UInt64} (varint : Varint bytes value)
    (remaining : Remaining buf pos (bytes ++ after)) :
    skipField buf pos 0 = (.ok (), pos + bytes.length) := by
  rw [(skipField_flat buf pos).1, readVarint_varint varint remaining]
  rfl

theorem skipField_fixed {buf bytes after : Bytes} {pos width : Nat} (size : bytes.length = width)
    (remaining : Remaining buf pos (bytes ++ after)) (some_byte : 0 < width) :
    (if buf.length < pos + width then ((.error .truncated, pos) : Except WireError Unit × Nat)
      else (.ok (), pos + width)) = (.ok (), pos + bytes.length) := by
  have room := remaining.length
  rw [List.length_append] at room
  rw [if_neg (by omega), size]

theorem skipField_block {buf length body after : Bytes} {pos : Nat} {size : UInt64}
    (varint : Varint length size) (whole : body.length = size.toNat)
    (remaining : Remaining buf pos (length ++ body ++ after)) :
    skipField buf pos 2 = (.ok (), pos + (length ++ body).length) := by
  rw [(skipField_flat buf pos).2.2.1, readLengthDelimited_block varint whole remaining]
  rfl

theorem skipGroup_close {buf close after : Bytes} {pos : Nat} {key : UInt64} (tag : Tag close key 4)
    (remaining : Remaining buf pos (close ++ after)) :
    skipGroup buf pos = (.ok (), pos + close.length) := by
  rw [skipGroup_eq, readTag_tag tag remaining]
  rfl

theorem skipGroup_field {buf tag content rest after : Bytes} {pos wireType : Nat} {key : UInt64}
    (isTag : Tag tag key wireType) (inside : wireType ≠ 4)
    (remaining : Remaining buf pos (tag ++ content ++ rest ++ after))
    (skips : ∀ pos, Remaining buf pos (content ++ (rest ++ after)) →
      skipField buf pos (UInt8.ofNat wireType) = (.ok (), pos + content.length))
    (onward : ∀ pos, Remaining buf pos (rest ++ after) →
      skipGroup buf pos = skipGroup buf (pos + rest.length)) :
    skipGroup buf pos = skipGroup buf (pos + (tag ++ content ++ rest).length) := by
  have small : wireType < 8 := by
    rw [← isTag.2]
    exact Nat.mod_lt _ (by decide)
  have differs : UInt8.ofNat wireType ≠ 4 := by
    intro same
    have nats := congrArg UInt8.toNat same
    rw [UInt8.toNat_ofNat', Nat.mod_eq_of_lt (by omega)] at nats
    exact inside nats
  rw [List.append_assoc, List.append_assoc] at remaining
  rw [skipGroup_eq, readTag_tag isTag remaining]
  simp only [if_neg differs, skips _ remaining.append]
  rw [onward _ remaining.append.append]
  simp only [List.length_append, Nat.add_assoc]

theorem skipGroup_fields {bytes : Bytes} {fields : List Field} (complete : Fields bytes fields) (buf after : Bytes)
    (pos : Nat) (remaining : Remaining buf pos (bytes ++ after)) :
    skipGroup buf pos = skipGroup buf (pos + bytes.length) := by
  induction complete generalizing after pos with
  | nil => rfl
  | varint tag varint _ ih =>
    exact skipGroup_field tag (by decide) remaining (fun _ => skipField_varint varint) (fun pos => ih after pos)
  | fixed64 tag size _ ih =>
    refine skipGroup_field tag (by decide) remaining (fun pos remaining => ?_) (fun pos => ih after pos)
    exact (skipField_flat buf pos).2.1.trans (skipField_fixed size remaining (by decide))
  | block tag varint whole _ ih =>
    exact skipGroup_field tag (by decide) remaining (fun _ => skipField_block varint whole) (fun pos => ih after pos)
  | group tag _ close _ nested ih =>
    refine skipGroup_field tag (by decide) remaining (fun pos remaining => ?_) (fun pos => ih after pos)
    rw [List.append_assoc] at remaining
    have ended := skipGroup_close close remaining.append
    rw [← nested _ pos remaining] at ended
    rw [List.length_append, ← Nat.add_assoc]
    exact (skipField_group buf pos).trans ended
  | fixed32 tag size _ ih =>
    refine skipGroup_field tag (by decide) remaining (fun pos remaining => ?_) (fun pos => ih after pos)
    exact (skipField_flat buf pos).2.2.2.trans (skipField_fixed size remaining (by decide))

theorem skipField_nested {buf inner close after : Bytes} {pos : Nat} {key : UInt64} {nested : List Field}
    (complete : Fields inner nested) (tag : Tag close key 4)
    (remaining : Remaining buf pos (inner ++ close ++ after)) :
    skipField buf pos 3 = (.ok (), pos + (inner ++ close).length) := by
  rw [List.append_assoc] at remaining
  rw [skipField_group, skipGroup_fields complete buf _ pos remaining, skipGroup_close tag remaining.append,
    List.length_append, Nat.add_assoc]

end MoshModel
