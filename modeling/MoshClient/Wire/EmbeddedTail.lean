import MoshClient.Wire.Offset
import MoshClient.Wire.Tolerance
import Mathlib.Logic.Relation

namespace MoshModel

open Relation

variable {State : Type} {schema : Schema State} {buf : Bytes} {pos : Nat}

/-- One round of the embedded loop: what it makes of the state and where it goes on, none where it breaks. -/
def embeddedRound (schema : Schema State) (buf : Bytes) (pos : Nat) : Option ((State → State) × Nat) :=
  match readTag buf pos with
  | (.error _, _) => none
  | (.ok (field, wireType), next) =>
    match readField schema buf next field wireType with
    | (.error _, after) => if (schema field wireType).isSome then some (id, after) else none
    | (.ok update, after) => some (update, after)

theorem decodeEmbeddedFrom_round (pos : Nat) (state : State) (inside : pos < buf.length) :
    decodeEmbeddedFrom schema buf pos state =
      match embeddedRound schema buf pos with
      | none => state
      | some (update, after) => decodeEmbeddedFrom schema buf after (update state) := by
  rw [decodeEmbeddedFrom, if_pos inside]
  unfold embeddedRound
  split
  · rename_i tag
    rw [tag]
  · rename_i field wireType next tag
    rw [tag]
    dsimp only [readField]
    cases known : schema field wireType with
    | some handler =>
      dsimp only
      split
      · rename_i value
        rw [value]
        rfl
      · rename_i value
        rw [value]
    | none =>
      dsimp only
      split
      · rename_i value
        rw [value]
        rfl
      · rename_i value
        rw [value]
        rfl

theorem embeddedRound_field {field : UInt32} {wireType : UInt8} {next after : Nat} {update : State → State}
    (tag : readTag buf pos = (.ok (field, wireType), next))
    (value : readField schema buf next field wireType = (.ok update, after)) :
    embeddedRound schema buf pos = some (update, after) := by
  unfold embeddedRound
  rw [tag]
  dsimp only
  rw [value]

theorem embeddedRound_forward {round : (State → State) × Nat} (goes : embeddedRound schema buf pos = some round) :
    pos < round.2 := by
  unfold embeddedRound at goes
  have advances := readTag_advances buf pos
  cases tag : readTag buf pos with
  | mk result next =>
    rw [tag] at advances goes
    cases result with
    | error e => cases goes
    | ok key =>
      have forward : pos < next := (advances.2 key rfl).1
      have later := readField_forward schema buf next key.1 key.2
      dsimp only at goes
      cases value : readField schema buf next key.1 key.2 with
      | mk result after =>
        rw [value] at later goes
        have beyond : pos < after := Nat.lt_of_lt_of_le forward later
        cases result with
        | error e =>
          dsimp only at goes
          split at goes
          · cases goes
            exact beyond
          · cases goes
        | ok update =>
          cases goes
          exact beyond

theorem readField_drop (inside : pos ≤ buf.length) (k : Nat) (field : UInt32) (wireType : UInt8) :
    readField schema buf (pos + k) field wireType = movedBy pos (readField schema (buf.drop pos) k field wireType) := by
  unfold readField
  cases schema field wireType with
  | none =>
    dsimp only
    rw [skipField_drop inside]
    rfl
  | some handler =>
    cases handler with
    | varint set =>
      dsimp only [FieldHandler.read]
      rw [readVarint_drop]
      rfl
    | block set =>
      dsimp only [FieldHandler.read]
      rw [readLengthDelimited_drop inside]
      rfl

theorem embeddedRound_drop (inside : pos ≤ buf.length) (k : Nat) :
    embeddedRound schema buf (pos + k) =
      (embeddedRound schema (buf.drop pos) k).map fun round => (round.1, pos + round.2) := by
  unfold embeddedRound
  rw [readTag_drop]
  cases readTag (buf.drop pos) k with
  | mk result next =>
    cases result with
    | error e => rfl
    | ok tag =>
      dsimp only [movedBy]
      rw [readField_drop inside]
      cases readField schema (buf.drop pos) next tag.1 tag.2 with
      | mk result after =>
        cases result with
        | error e =>
          dsimp only [movedBy]
          split <;> rfl
        | ok update => rfl

def LoopsTo (schema : Schema State) (buf : Bytes) (before after : Nat × State) : Prop :=
  before.1 < buf.length ∧
    (embeddedRound schema buf before.1).map (fun round => (round.2, round.1 before.2)) = some after

theorem LoopsTo.of_round {update : State → State} {next : Nat} {state : State} (inside : pos < buf.length)
    (round : embeddedRound schema buf pos = some (update, next)) :
    LoopsTo schema buf (pos, state) (next, update state) := ⟨inside, by simp [round]⟩

theorem LoopsTo.unique : Relator.RightUnique (LoopsTo schema buf) := by
  intro before left right first second
  exact Option.some.inj (first.2.symm.trans second.2)

theorem LoopsTo.spec {before after : Nat × State} (loops : LoopsTo schema buf before after) :
    before.1 < after.1 ∧
      decodeEmbeddedFrom schema buf before.1 before.2 = decodeEmbeddedFrom schema buf after.1 after.2 := by
  obtain ⟨inside, went⟩ := loops
  rw [decodeEmbeddedFrom_round before.1 before.2 inside]
  cases round : embeddedRound schema buf before.1 with
  | none =>
    rw [round] at went
    cases went
  | some step =>
    rw [round] at went
    cases went
    exact ⟨embeddedRound_forward round, rfl⟩

theorem loopsTo_spec {before after : Nat × State} (loops : ReflTransGen (LoopsTo schema buf) before after) :
    before.1 ≤ after.1 ∧
      decodeEmbeddedFrom schema buf before.1 before.2 = decodeEmbeddedFrom schema buf after.1 after.2 := by
  induction loops with
  | refl => exact ⟨Nat.le_refl _, rfl⟩
  | tail _ last ih => exact ⟨Nat.le_of_lt (Nat.lt_of_le_of_lt ih.1 last.spec.1), ih.2.trans last.spec.2⟩

theorem loopsTo_fields (typed : schema.Typed) {bytes : Bytes} {fields : List Field} (complete : Fields bytes fields)
    (after : Bytes) (state : State) :
    ReflTransGen (LoopsTo schema (bytes ++ after)) (0, state) (bytes.length, updateAll schema fields state) := by
  have carried : Carried schema (bytes ++ after) fun next out =>
      ReflTransGen (LoopsTo schema (bytes ++ after)) (0, state) (next, out) := by
    intro pos _ _ _ _ _ _ inside tag value here
    exact here.tail (.of_round inside (embeddedRound_field tag value))
  have read := carried.fields typed complete after 0 state (Remaining.start (bytes ++ after)) .refl
  rwa [Nat.zero_add] at read

/-- The first field of a tail has a malformed tag, or its value cannot be read. -/
def Unreadable (tail : Bytes) : Prop :=
  match readTag tail 0 with
  | (.error _, _) => True
  | (.ok (_, wireType), next) => ∃ e, (skipField tail next wireType).1 = .error e

def EndsInVarint (bytes : Bytes) : Prop := bytes.length ≤ 10 ∧ ∀ byte ∈ bytes.dropLast, 128 ≤ byte.toNat

/-- The first field of a tail has a malformed tag or is none the decoder knows, or nothing stands after the
    number its value begins with. -/
def Contained (schema : Schema State) (tail : Bytes) : Prop :=
  match readTag tail 0 with
  | (.error _, _) => True
  | (.ok (field, wireType), next) => schema field wireType = none ∨ EndsInVarint (tail.drop next)

theorem dropLast_high {byte : UInt8} {bytes : Bytes} (high : 128 ≤ byte.toNat) :
    (∀ other ∈ (byte :: bytes).dropLast, 128 ≤ other.toNat) ↔ ∀ other ∈ bytes.dropLast, 128 ≤ other.toNat := by
  cases bytes with
  | nil => simp
  | cons first rest => simp [high]

theorem dropLast_low {byte : UInt8} {bytes : Bytes} (low : byte.toNat < 128) :
    (∀ other ∈ (byte :: bytes).dropLast, 128 ≤ other.toNat) ↔ bytes = [] := by
  cases bytes with
  | nil => simp
  | cons first rest => simp [low]

theorem readVarintFrom_stop (buf : Bytes) (rounds : Nat) (value : UInt64) (pos : Nat) (inside : pos ≤ buf.length) :
    (readVarintFrom buf rounds value pos).2 ≤ buf.length ∧
      ((readVarintFrom buf rounds value pos).2 = buf.length ↔
        (buf.drop pos).length ≤ rounds ∧ ∀ byte ∈ (buf.drop pos).dropLast, 128 ≤ byte.toNat) := by
  induction rounds generalizing value pos with
  | zero =>
    have spent : pos = buf.length ↔ buf.drop pos = [] := by
      rw [List.drop_eq_nil_iff]
      omega
    refine ⟨inside, spent.trans ⟨fun none => by simp [none], fun none => ?_⟩⟩
    exact List.eq_nil_of_length_eq_zero (Nat.le_zero.mp none.1)
  | succ rounds ih =>
    unfold readVarintFrom
    cases found : buf[pos]? with
    | none =>
      have spent := List.getElem?_eq_none_iff.mp found
      rw [List.drop_eq_nil_of_le spent]
      exact ⟨inside, by simp; omega⟩
    | some byte =>
      obtain ⟨room, same⟩ := List.getElem?_eq_some_iff.mp found
      have onward : buf.drop pos = byte :: buf.drop (pos + 1) := by
        rw [List.drop_eq_getElem_cons room, same]
      rw [onward]
      dsimp only
      split
      · rename_i last
        rw [dropLast_low ((cont_bit byte).mp last), List.drop_eq_nil_iff, List.length_cons, List.length_drop]
        omega
      · rename_i continued
        have high : 128 ≤ byte.toNat := Nat.le_of_not_lt (mt (cont_bit byte).mpr continued)
        rw [dropLast_high high, List.length_cons, Nat.add_le_add_iff_right]
        exact ih _ (pos + 1) room

theorem readVarint_stop (buf : Bytes) (pos : Nat) (inside : pos ≤ buf.length) :
    (readVarint buf pos).2 ≤ buf.length ∧ ((readVarint buf pos).2 = buf.length ↔ EndsInVarint (buf.drop pos)) :=
  readVarintFrom_stop buf 10 0 pos inside

theorem readLengthDelimited_error {e : WireError} (unread : (readLengthDelimited buf pos).1 = .error e) :
    readLengthDelimited buf pos = (.error e, (readVarint buf pos).2) := by
  unfold readLengthDelimited at unread ⊢
  cases length : readVarint buf pos with
  | mk result next =>
    rw [length] at unread
    cases result with
    | error other =>
      cases unread
      rfl
    | ok size =>
      dsimp only at unread ⊢
      split at unread
      · rename_i long
        cases unread
        rw [if_pos long]
      · cases unread

theorem map_error {Value Other : Type} {result : Except WireError Value} {f : Value → Other} {e : WireError}
    (unread : result.map f = .error e) : result = .error e := by
  cases result with
  | error other =>
    cases unread
    rfl
  | ok value => cases unread

theorem readField_unreadable (typed : schema.Typed) {field : UInt32} {wireType : UInt8}
    (known : (schema field wireType).isSome) {e : WireError} (unread : (skipField buf pos wireType).1 = .error e) :
    readField schema buf pos field wireType = (.error e, (readVarint buf pos).2) := by
  obtain ⟨zero, -, two, -⟩ := skipField_flat buf pos
  obtain ⟨handler, known⟩ := Option.isSome_iff_exists.mp known
  have same := typed _ _ _ known
  unfold readField
  rw [known]
  cases handler with
  | varint set =>
    obtain rfl : wireType = 0 := same
    rw [zero] at unread
    dsimp only [FieldHandler.read]
    rw [map_error unread]
    rfl
  | block set =>
    obtain rfl : wireType = 2 := same
    rw [two] at unread
    dsimp only [FieldHandler.read]
    rw [readLengthDelimited_error (map_error unread)]
    rfl

theorem embeddedRound_unreadable (typed : schema.Typed) {tail : Bytes} (unreadable : Unreadable tail) :
    (embeddedRound schema tail 0 = none ∧ Contained schema tail) ∨
      ∃ stop, embeddedRound schema tail 0 = some (id, stop) ∧ 0 < stop ∧ stop ≤ tail.length ∧
        (stop = tail.length ↔ Contained schema tail) := by
  have advances := readTag_advances tail 0
  unfold Unreadable at unreadable
  unfold embeddedRound Contained
  cases tag : readTag tail 0 with
  | mk result next =>
    rw [tag] at advances unreadable
    cases result with
    | error e => exact .inl ⟨rfl, trivial⟩
    | ok key =>
      obtain ⟨forward, inside⟩ := advances.2 key rfl
      obtain ⟨e, unread⟩ := unreadable
      dsimp only at forward inside unread ⊢
      by_cases known : (schema key.1 key.2).isSome
      · right
        have stops := readVarint_stop tail next inside
        have later := (readVarint_advances tail next).1
        have some_handler : schema key.1 key.2 ≠ none := Option.isSome_iff_ne_none.mp known
        rw [readField_unreadable typed known unread]
        simp only [known, if_true]
        refine ⟨_, rfl, Nat.lt_of_lt_of_le forward later, stops.1, ?_⟩
        simp only [some_handler, false_or]
        exact stops.2
      · left
        have unknown : schema key.1 key.2 = none := Option.not_isSome_iff_eq_none.mp known
        refine ⟨?_, .inl unknown⟩
        unfold readField
        rw [unknown]
        dsimp only
        rw [unread]
        rfl

/-- A position at which the loop, begun on the whole buffer, reads a tag. -/
def TagReadAt (schema : Schema State) (buf : Bytes) (first : State) (pos : Nat) : Prop :=
  pos < buf.length ∧ ∃ state, ReflTransGen (LoopsTo schema buf) (0, first) (pos, state)

theorem TagReadAt.onward {first out : State} {here : Nat} (read : TagReadAt schema buf first pos)
    (arrives : ReflTransGen (LoopsTo schema buf) (0, first) (here, out)) :
    pos ≤ here ∨ ∃ next, LoopsTo schema buf (here, out) next ∧ next.1 ≤ pos ∧ pos < buf.length := by
  obtain ⟨room, state, reached⟩ := read
  rcases ReflTransGen.total_of_right_unique LoopsTo.unique arrives reached with onward | back
  · rcases onward.cases_head with same | ⟨next, step, rest⟩
    · cases same
      exact .inl (Nat.le_refl _)
    · exact .inr ⟨next, step, (loopsTo_spec rest).1, room⟩
  · exact .inl (loopsTo_spec back).1

theorem decodeEmbeddedFrom_fields (typed : schema.Typed) {bytes : Bytes} {fields : List Field}
    (complete : Fields bytes fields) (first : State) :
    decodeEmbeddedFrom schema bytes 0 first = updateAll schema fields first := by
  have arrives := loopsTo_fields typed complete [] first
  rw [List.append_nil] at arrives
  refine (loopsTo_spec arrives).2.trans ?_
  exact decodeEmbeddedFrom_done _ (List.drop_length)

theorem decodeEmbeddedFrom_drop (inside : pos ≤ buf.length) (k : Nat) (state : State) :
    decodeEmbeddedFrom schema buf (pos + k) state = decodeEmbeddedFrom schema (buf.drop pos) k state := by
  have length : (buf.drop pos).length = buf.length - pos := List.length_drop
  generalize left : buf.length - (pos + k) = size
  induction size using Nat.strongRecOn generalizing k state with
  | ind size ih =>
    by_cases room : pos + k < buf.length
    · have roomTail : k < (buf.drop pos).length := by omega
      rw [decodeEmbeddedFrom_round _ _ room, decodeEmbeddedFrom_round _ _ roomTail, embeddedRound_drop inside]
      cases round : embeddedRound schema (buf.drop pos) k with
      | none => rfl
      | some step =>
        have forward := embeddedRound_forward round
        exact ih _ (by omega) step.2 (step.1 state) rfl
    · rw [decodeEmbeddedFrom, decodeEmbeddedFrom, if_neg room, if_neg (by omega)]

theorem decodeEmbeddedFrom_append (typed : schema.Typed) {whole : Bytes} {fields : List Field}
    (complete : Fields whole fields) (tail : Bytes) (first : State) :
    decodeEmbeddedFrom schema (whole ++ tail) 0 first =
      decodeEmbeddedFrom schema tail 0 (decodeEmbeddedFrom schema whole 0 first) := by
  have inside : whole.length ≤ (whole ++ tail).length := by simp
  have arrives := (loopsTo_spec (loopsTo_fields typed complete tail first)).2
  rw [decodeEmbeddedFrom_fields typed complete]
  refine arrives.trans ((decodeEmbeddedFrom_drop inside 0 _).trans ?_)
  rw [List.drop_left]

theorem embeddedRound_append (schema : Schema State) (whole tail : Bytes) :
    embeddedRound schema (whole ++ tail) whole.length =
      (embeddedRound schema tail 0).map fun round => (round.1, whole.length + round.2) := by
  have inside : whole.length ≤ (whole ++ tail).length := by simp
  have shifted : embeddedRound schema (whole ++ tail) (whole.length + 0) = _ := embeddedRound_drop inside 0
  rwa [List.drop_left, Nat.add_zero] at shifted

/-- An unreadable field leaves the loop's result as it was and none of its bytes are read as a tag
    just where it is contained. -/
theorem embedded_tail_iff (typed : schema.Typed) {whole tail : Bytes} {fields : List Field}
    (complete : Fields whole fields) (unreadable : Unreadable tail) (first : State) :
    (decodeEmbeddedFrom schema (whole ++ tail) 0 first = decodeEmbeddedFrom schema whole 0 first ∧
        ∀ pos, TagReadAt schema (whole ++ tail) first pos → pos ≤ whole.length) ↔ Contained schema tail := by
  have arrives := loopsTo_fields typed complete tail first
  have total : (whole ++ tail).length = whole.length + tail.length := List.length_append
  have round := embeddedRound_append schema whole tail
  rw [decodeEmbeddedFrom_append typed complete]
  generalize decodeEmbeddedFrom schema whole 0 first = out
  rcases embeddedRound_unreadable typed unreadable with ⟨breaks, contained⟩ | ⟨stop, goes, forward, bounded, contained⟩
  · rw [breaks] at round
    refine iff_of_true ⟨?_, fun pos read => ?_⟩ contained
    · by_cases inside : 0 < tail.length
      · rw [decodeEmbeddedFrom_round _ _ inside, breaks]
      · rw [decodeEmbeddedFrom, if_neg inside]
    · rcases read.onward arrives with before | ⟨next, step, -, -⟩
      · exact before
      · have went := step.2
        rw [round] at went
        cases went
  · rw [goes] at round
    have step : LoopsTo schema (whole ++ tail) (whole.length, updateAll schema fields first)
        (whole.length + stop, updateAll schema fields first) := .of_round (by omega) round
    rw [← contained]
    constructor
    · intro undisturbed
      by_contra short
      have read : TagReadAt schema (whole ++ tail) first (whole.length + stop) :=
        ⟨by omega, _, arrives.tail step⟩
      have := undisturbed.2 _ read
      omega
    · intro spent
      refine ⟨?_, fun pos read => ?_⟩
      · rw [decodeEmbeddedFrom_round _ _ (by omega), goes, spent]
        exact decodeEmbeddedFrom_done _ List.drop_length
      · rcases read.onward arrives with before | ⟨next, other, below, room⟩
        · exact before
        · obtain rfl := LoopsTo.unique other step
          dsimp only at below
          omega

/-- Where the unreadable field is not contained, what stands after its number is decoded as further fields,
    and the result is what it was only as they happen to say so. -/
theorem embedded_tail_reread (typed : schema.Typed) {whole tail : Bytes} {fields : List Field}
    (complete : Fields whole fields) (unreadable : Unreadable tail) (escapes : ¬Contained schema tail) (first : State) :
    ∃ stop, 0 < stop ∧ stop < tail.length ∧
      decodeEmbeddedFrom schema (whole ++ tail) 0 first =
        decodeEmbeddedFrom schema (tail.drop stop) 0 (decodeEmbeddedFrom schema whole 0 first) := by
  rcases embeddedRound_unreadable typed unreadable with ⟨-, contained⟩ | ⟨stop, goes, forward, bounded, contained⟩
  · exact absurd contained escapes
  · have short : stop < tail.length := by
      have := mt contained.mp escapes
      omega
    refine ⟨stop, forward, short, ?_⟩
    rw [decodeEmbeddedFrom_append typed complete, decodeEmbeddedFrom_round _ _ (by omega), goes]
    exact decodeEmbeddedFrom_drop bounded 0 _

theorem Unreadable.of_block {tail : Bytes} {field : UInt32} {next stop : Nat} {e : WireError}
    (tag : readTag tail 0 = (.ok (field, 2), next)) (value : readLengthDelimited tail next = (.error e, stop)) :
    Unreadable tail := by
  unfold Unreadable
  rw [tag]
  refine ⟨e, ?_⟩
  rw [(skipField_flat tail next).2.2.1, value]
  rfl

theorem Contained.of_number {tail : Bytes} {field : UInt32} {wireType : UInt8} {next : Nat}
    (tag : readTag tail 0 = (.ok (field, wireType), next)) (ends : EndsInVarint (tail.drop next)) :
    Contained schema tail := by
  unfold Contained
  rw [tag]
  exact .inr ends

theorem UserMessage.instructionSchema_typed : UserMessage.instructionSchema.Typed := by
  intro field wireType handler known
  unfold UserMessage.instructionSchema at known
  repeat' split at known
  all_goals grind [FieldHandler.wireType]

theorem HostMessage.instructionSchema_typed : HostMessage.instructionSchema.Typed := by
  intro field wireType handler known
  unfold HostMessage.instructionSchema at known
  repeat' split at known
  all_goals grind [FieldHandler.wireType]

/-- After complete fields, an unreadable field of an embedded instruction is ignored, with all its bytes,
    just where it is contained. -/
theorem unreadable_ignored_iff {whole tail : Bytes} {fields : List Field} (complete : Fields whole fields)
    (unreadable : Unreadable tail) :
    ((UserMessage.decodeUserInstruction (whole ++ tail) = UserMessage.decodeUserInstruction whole ∧
        ∀ pos, TagReadAt UserMessage.instructionSchema (whole ++ tail) (.keystroke []) pos → pos ≤ whole.length) ↔
      Contained UserMessage.instructionSchema tail) ∧
    ((HostMessage.decodeHostInstruction (whole ++ tail) = HostMessage.decodeHostInstruction whole ∧
        ∀ pos, TagReadAt HostMessage.instructionSchema (whole ++ tail) (.hostBytes []) pos → pos ≤ whole.length) ↔
      Contained HostMessage.instructionSchema tail) :=
  ⟨embedded_tail_iff UserMessage.instructionSchema_typed complete unreadable _,
    embedded_tail_iff HostMessage.instructionSchema_typed complete unreadable _⟩

theorem unreadable_ignored_iff_length :
    UserMessage.decodeUserInstruction ([0x1A, 0x00] ++ [0x12, 0x83]) =
        UserMessage.decodeUserInstruction [0x1A, 0x00] ∧
      HostMessage.decodeHostInstruction ([0x1A, 0x00] ++ [0x12, 0x83]) =
        HostMessage.decodeHostInstruction [0x1A, 0x00] := by
  have tag : Tag [0x1A] 26 2 := ⟨⟨by simp [Base128.Terminated], by decide, by decide⟩, by decide⟩
  have size : Varint [0x00] 0 := ⟨by simp [Base128.Terminated], by decide, by decide⟩
  have empty : ([] : Bytes).length = (0 : UInt64).toNat := rfl
  have resize : Fields [0x1A, 0x00] [⟨26, .block []⟩] := .block tag size empty .nil
  have short : Unreadable [0x12, 0x83] := .of_block rfl rfl
  have ignored := unreadable_ignored_iff resize short
  have head : readTag [0x12, 0x83] 0 = (.ok (2, 2), 1) := rfl
  have ends : EndsInVarint (([0x12, 0x83] : Bytes).drop 1) := ⟨by decide, by simp⟩
  exact ⟨(ignored.1.mpr (.of_number head ends)).1, (ignored.2.mpr (.of_number head ends)).1⟩

theorem unreadable_read_as_resize :
    ¬∀ (whole : Bytes) (fields : List Field) (tail : Bytes), Fields whole fields → tail ≠ [] → Unreadable tail →
      UserMessage.decodeUserInstruction (whole ++ tail) = UserMessage.decodeUserInstruction whole ∧
        HostMessage.decodeHostInstruction (whole ++ tail) = HostMessage.decodeHostInstruction whole := by
  intro ignored
  have block : Unreadable [0x12, 0x03, 0x1A, 0x00] := .of_block rfl rfl
  have same := (ignored [] [] _ .nil (by decide) block).1
  have differs : UserMessage.decodeUserInstruction [0x12, 0x03, 0x1A, 0x00] ≠ UserMessage.decodeUserInstruction [] := by
    decide +kernel
  exact differs same

end MoshModel
