import MoshClient.Library.Base128
import MoshClient.Wire.Messages

namespace MoshModel

theorem writeVarint_eq (value : UInt64) : writeVarint value = Base128.encode value.toNat := by
  induction value using writeVarint.induct with
  | case1 value last =>
    have small : value.toNat < 128 := by
      have shifted := congrArg UInt64.toNat last
      simp only [UInt64.toNat_shiftRight, UInt64.reduceToNat, Nat.reduceMod,
        Nat.shiftRight_eq_div_pow] at shifted
      omega
    rw [writeVarint, dif_pos last, Base128.encode, if_pos small]
    congr 1
    apply UInt8.toNat_inj.mp
    have low := Nat.and_two_pow_sub_one_eq_mod value.toNat 7
    simp only [UInt64.toNat_toUInt8, UInt64.toNat_and, UInt64.reduceToNat, UInt8.toNat_ofNat']
    simp only [Nat.reducePow, Nat.add_one_sub_one] at low
    rw [low]
    omega
  | case2 value more ih =>
    have large : ¬ value.toNat < 128 := by
      intro small
      apply more
      apply UInt64.toNat_inj.mp
      simp only [UInt64.toNat_shiftRight, UInt64.reduceToNat, Nat.reduceMod,
        Nat.shiftRight_eq_div_pow]
      omega
    have quotient : (value >>> 7).toNat = value.toNat / 128 := by
      simp only [UInt64.toNat_shiftRight, UInt64.reduceToNat, Nat.reduceMod,
        Nat.shiftRight_eq_div_pow]
    rw [writeVarint, dif_neg more, Base128.encode, if_neg large, ih, quotient]
    congr 1
    apply UInt8.toNat_inj.mp
    have low := Nat.and_two_pow_sub_one_eq_mod value.toNat 7
    have join := Nat.two_pow_add_eq_or_of_lt (i := 7) (b := value.toNat % 128) (Nat.mod_lt _ (by decide)) 1
    simp only [Nat.reducePow, Nat.add_one_sub_one, Nat.mul_one] at low join
    simp only [UInt8.toNat_or, UInt64.toNat_toUInt8, UInt64.toNat_and, UInt64.reduceToNat,
      UInt8.toNat_ofNat', UInt8.reduceToNat, low]
    rw [Nat.mod_eq_of_lt (show value.toNat % 128 < 256 by omega), Nat.or_comm, ← join]
    omega

theorem writeVarint_ne_nil (value : UInt64) : writeVarint value ≠ [] := by
  rw [writeVarint_eq]
  exact Base128.encode_ne_nil _

def Remaining (buf : Bytes) (pos : Nat) (rest : Bytes) : Prop := buf.drop pos = rest

theorem Remaining.start (buf : Bytes) : Remaining buf 0 buf := rfl

theorem Remaining.pad {buf bytes : Bytes} {pos : Nat} (remaining : Remaining buf pos bytes) :
    Remaining buf pos (bytes ++ []) := by
  rw [List.append_nil]
  exact remaining

theorem Remaining.append {buf left right : Bytes} {pos : Nat}
    (remaining : Remaining buf pos (left ++ right)) : Remaining buf (pos + left.length) right := by
  unfold Remaining at *
  rw [← List.drop_drop, remaining, List.drop_left]

theorem Remaining.length {buf rest : Bytes} {pos : Nat} (remaining : Remaining buf pos rest) :
    rest.length = buf.length - pos := by
  rw [← remaining, List.length_drop]

theorem Remaining.head {buf rest : Bytes} {byte : UInt8} {pos : Nat}
    (remaining : Remaining buf pos (byte :: rest)) : buf[pos]? = some byte := by
  have first : (buf.drop pos)[0]? = buf[pos + 0]? := List.getElem?_drop
  rw [show buf.drop pos = byte :: rest from remaining] at first
  simpa using first.symm

theorem cont_bit (byte : UInt8) : byte &&& 0x80 = 0 ↔ byte.toNat < 128 := by
  have all : ∀ number : Fin 256, UInt8.ofNat number.val &&& 0x80 = 0 ↔ number.val < 128 := by decide +kernel
  simpa using all ⟨byte.toNat, byte.toNat_lt⟩

theorem payload_bits (byte : UInt8) : (byte &&& 0x7f).toNat = byte.toNat % 128 := by
  have low := Nat.and_two_pow_sub_one_eq_mod byte.toNat 7
  simp only [Nat.reducePow, Nat.add_one_sub_one] at low
  simp only [UInt8.toNat_and, UInt8.reduceToNat, low]

theorem merge_group (value : UInt64) (byte : UInt8) (shift : Nat) (small : shift ≤ 63)
    (bound : value.toNat < 2 ^ shift) :
    (value ||| ((byte &&& 0x7f).toUInt64 <<< UInt64.ofNat shift)).toNat =
      (value.toNat + 2 ^ shift * (byte.toNat % 128)) % 2 ^ 64 := by
  have amount : (UInt64.ofNat shift).toNat % 64 = shift := by
    rw [UInt64.toNat_ofNat']
    omega
  rw [UInt64.toNat_or, UInt64.toNat_shiftLeft, UInt8.toNat_toUInt64, payload_bits, amount,
    Nat.shiftLeft_eq, Nat.mul_comm (byte.toNat % 128)]
  have split : 2 ^ 64 = 2 ^ shift * 2 ^ (64 - shift) := by
    rw [← Nat.pow_add]
    congr 1
    omega
  rw [split, Nat.mul_mod_mul_left, Nat.or_comm, ← Nat.two_pow_add_eq_or_of_lt bound, ← split]
  have fits : 2 ^ shift * (byte.toNat % 128 % 2 ^ (64 - shift)) + value.toNat < 2 ^ 64 := by
    have digit := Nat.mod_lt (byte.toNat % 128) (Nat.two_pow_pos (64 - shift))
    have scaled := Nat.mul_le_mul_left (2 ^ shift) (Nat.succ_le_of_lt digit)
    rw [← split, Nat.succ_eq_add_one, Nat.mul_add, Nat.mul_one] at scaled
    omega
  have reduce : (2 ^ shift * (byte.toNat % 128)) % 2 ^ 64 =
      2 ^ shift * (byte.toNat % 128 % 2 ^ (64 - shift)) := by
    rw [split, Nat.mul_mod_mul_left]
  rw [← Nat.add_mod_mod, reduce, Nat.add_comm value.toNat]
  exact (Nat.mod_eq_of_lt fits).symm

theorem readVarintFrom_terminated (buf rest bytes : Bytes) (rounds pos : Nat) (value : UInt64)
    (remaining : Remaining buf pos (bytes ++ rest)) (terminated : Base128.Terminated bytes)
    (enough : bytes.length ≤ rounds) (most : rounds ≤ 10)
    (bound : value.toNat < 2 ^ (7 * (10 - rounds))) :
    readVarintFrom buf rounds value pos =
      (.ok (UInt64.ofNat (value.toNat + 2 ^ (7 * (10 - rounds)) * Base128.value bytes)),
        pos + bytes.length) := by
  induction bytes generalizing rounds pos value with
  | nil => exact terminated.elim
  | cons byte bytes ih =>
    obtain _ | rounds := rounds
    · simp at enough
    have shift : 7 * (10 - (rounds + 1)) = 7 * (9 - rounds) := by omega
    rw [shift] at bound ⊢
    have merged := merge_group value byte (7 * (9 - rounds)) (by omega) bound
    have head : buf[pos]? = some byte := Remaining.head (by simpa using remaining)
    simp only [readVarintFrom, head]
    cases bytes with
    | nil =>
      have last : byte.toNat < 128 := terminated
      rw [if_pos ((cont_bit byte).mpr last)]
      simp only [Base128.value, Nat.mul_zero, Nat.add_zero, List.length_singleton, Prod.mk.injEq,
        Except.ok.injEq, and_true]
      apply UInt64.toNat_inj.mp
      rw [merged, UInt64.toNat_ofNat']
    | cons next bytes =>
      obtain ⟨continued, tail⟩ := terminated
      have cut : Remaining buf pos ([byte] ++ ((next :: bytes) ++ rest)) := by simpa using remaining
      have next_remaining : Remaining buf (pos + 1) ((next :: bytes) ++ rest) := cut.append
      have grow : 2 ^ (7 * (10 - rounds)) = 2 ^ (7 * (9 - rounds)) * 128 := by
        have step : 7 * (10 - rounds) = 7 * (9 - rounds) + 7 := by omega
        rw [step, Nat.pow_add]
      have next_bound : (value ||| ((byte &&& 0x7f).toUInt64 <<< UInt64.ofNat (7 * (9 - rounds)))).toNat <
          2 ^ (7 * (10 - rounds)) := by
        rw [merged, grow]
        have scaled := Nat.mul_le_mul_left (2 ^ (7 * (9 - rounds)))
          (show byte.toNat % 128 ≤ 127 by omega)
        have below := Nat.mod_le (value.toNat + 2 ^ (7 * (9 - rounds)) * (byte.toNat % 128)) (2 ^ 64)
        omega
      rw [if_neg (by rw [cont_bit]; omega),
        ih rounds (pos + 1) _ next_remaining tail (by simpa using enough) (by omega) next_bound]
      simp only [List.length_cons, Prod.mk.injEq, Except.ok.injEq]
      refine ⟨?_, by omega⟩
      apply UInt64.toNat_inj.mp
      rw [UInt64.toNat_ofNat', UInt64.toNat_ofNat', merged, grow, Nat.mod_add_mod]
      simp only [Base128.value]
      congr 1
      ring

theorem readVarint_write (buf rest : Bytes) (pos : Nat) (value : UInt64)
    (remaining : Remaining buf pos (writeVarint value ++ rest)) :
    readVarint buf pos = (.ok value, pos + (writeVarint value).length) := by
  rw [writeVarint_eq] at remaining ⊢
  have short : (Base128.encode value.toNat).length ≤ 10 :=
    Base128.encode_length_le _ 9 (Nat.lt_trans value.toNat_lt (by decide))
  rw [readVarint, readVarintFrom_terminated buf rest _ 10 pos 0 remaining
    (Base128.encode_terminated _) short (Nat.le_refl _) (by decide), Base128.value_encode]
  simp

theorem tag_key (field : UInt32) (wireType : UInt8) (small : wireType.toNat < 8) :
    ((field.toUInt64 <<< 3) ||| wireType.toUInt64).toNat = 8 * field.toNat + wireType.toNat := by
  have bound := field.toNat_lt
  have join := Nat.two_pow_add_eq_or_of_lt (i := 3) small field.toNat
  rw [UInt64.toNat_or, UInt64.toNat_shiftLeft, Nat.shiftLeft_eq]
  simp only [UInt32.toNat_toUInt64, UInt8.toNat_toUInt64, UInt64.reduceToNat, Nat.reduceMod,
    Nat.reducePow] at join ⊢
  rw [Nat.mod_eq_of_lt (by omega), Nat.mul_comm, ← join]

theorem readTag_write (buf rest : Bytes) (pos : Nat) (field : UInt32) (wireType : UInt8)
    (small : wireType.toNat < 8) (remaining : Remaining buf pos (writeTag field wireType ++ rest)) :
    readTag buf pos = (.ok (field, wireType), pos + (writeTag field wireType).length) := by
  have key := tag_key field wireType small
  have bound := field.toNat_lt
  have number : (((field.toUInt64 <<< 3) ||| wireType.toUInt64) >>> 3).toUInt32 = field := by
    apply UInt32.toNat_inj.mp
    rw [UInt64.toNat_toUInt32, UInt64.toNat_shiftRight, key]
    simp only [UInt64.reduceToNat, Nat.reduceMod, Nat.shiftRight_eq_div_pow, Nat.reducePow]
    omega
  have kind : (((field.toUInt64 <<< 3) ||| wireType.toUInt64) &&& 0x7).toUInt8 = wireType := by
    apply UInt8.toNat_inj.mp
    have low := Nat.and_two_pow_sub_one_eq_mod (8 * field.toNat + wireType.toNat) 3
    simp only [Nat.reducePow, Nat.add_one_sub_one] at low
    rw [UInt64.toNat_toUInt8, UInt64.toNat_and, key]
    simp only [UInt64.reduceToNat, low]
    omega
  rw [readTag, readVarint_write buf rest pos _ remaining]
  simp only [number, kind, writeTag]

theorem readLengthDelimited_write (buf rest bytes : Bytes) (pos : Nat) (fits : bytes.length < 2 ^ 64)
    (remaining : Remaining buf pos (writeVarint (UInt64.ofNat bytes.length) ++ (bytes ++ rest))) :
    readLengthDelimited buf pos =
      (.ok bytes, pos + (writeVarint (UInt64.ofNat bytes.length)).length + bytes.length) := by
  have size : (UInt64.ofNat bytes.length).toNat = bytes.length := by
    rw [UInt64.toNat_ofNat', Nat.mod_eq_of_lt fits]
  have body := remaining.append
  have room := remaining.length
  have some_byte := List.length_pos_iff.mpr (writeVarint_ne_nil (UInt64.ofNat bytes.length))
  rw [List.length_append, List.length_append] at room
  rw [readLengthDelimited, readVarint_write buf _ pos _ remaining]
  simp only [size]
  rw [if_neg (by omega)]
  rw [List.drop_take, show buf.drop _ = bytes ++ rest from body]
  simp

section Fields

variable {State : Type} {schema : Schema State} {buf rest : Bytes} {pos : Nat} {field : UInt32}

theorem handler_varint_read (set : UInt64 → State → State) (value : UInt64)
    (remaining : Remaining buf pos (writeVarint value ++ rest)) :
    (FieldHandler.varint set).read buf pos = (.ok (set value), pos + (writeVarint value).length) := by
  rw [FieldHandler.read, readVarint_write buf rest pos value remaining]
  rfl

theorem handler_block_read (set : Bytes → State → State) (bytes : Bytes) (fits : bytes.length < 2 ^ 64)
    (remaining : Remaining buf pos (writeVarint (UInt64.ofNat bytes.length) ++ (bytes ++ rest))) :
    (FieldHandler.block set).read buf pos =
      (.ok (set bytes), pos + (writeVarint (UInt64.ofNat bytes.length)).length + bytes.length) := by
  rw [FieldHandler.read, readLengthDelimited_write buf rest bytes pos fits remaining]
  rfl

theorem Remaining.before_end {byte : UInt8} (remaining : Remaining buf pos (byte :: rest)) :
    pos < buf.length := by
  obtain ⟨inside, -⟩ := List.getElem?_eq_some_iff.mp remaining.head
  exact inside

theorem Remaining.tag_before_end {wireType : UInt8}
    (remaining : Remaining buf pos (writeTag field wireType ++ rest)) : pos < buf.length := by
  have nonempty := writeVarint_ne_nil ((field.toUInt64 <<< 3) ||| wireType.toUInt64)
  unfold writeTag at remaining
  cases bytes : writeVarint ((field.toUInt64 <<< 3) ||| wireType.toUInt64) with
  | nil => exact absurd bytes nonempty
  | cons byte tail =>
    rw [bytes] at remaining
    exact remaining.before_end

theorem decodeFieldsFrom_done (state : State) (remaining : Remaining buf pos []) :
    decodeFieldsFrom schema buf pos state = .ok state := by
  have spent := remaining.length
  rw [decodeFieldsFrom, if_neg]
  simp only [List.length_nil] at spent
  omega

theorem decodeEmbeddedFrom_done (state : State) (remaining : Remaining buf pos []) :
    decodeEmbeddedFrom schema buf pos state = state := by
  have spent := remaining.length
  rw [decodeEmbeddedFrom, if_neg]
  simp only [List.length_nil] at spent
  omega

theorem decodeFieldsFrom_step (state : State) {update : State → State} {next after : Nat} {wireType : UInt8}
    (inside : pos < buf.length) (tag : readTag buf pos = (.ok (field, wireType), next))
    (value : readField schema buf next field wireType = (.ok update, after)) :
    decodeFieldsFrom schema buf pos state = decodeFieldsFrom schema buf after (update state) := by
  rw [decodeFieldsFrom, if_pos inside]
  split
  · rename_i failed
    rw [tag] at failed
    cases failed
  · rename_i read
    rw [tag] at read
    cases read
    split
    · rename_i failed
      rw [value] at failed
      cases failed
    · rename_i read
      rw [value] at read
      cases read
      rfl

theorem decode_known (state : State) (update : State → State) (after : Nat) (wireType : UInt8)
    (small : wireType.toNat < 8) {handler : FieldHandler State}
    (known : schema field wireType = some handler)
    (remaining : Remaining buf pos (writeTag field wireType ++ rest))
    (value : handler.read buf (pos + (writeTag field wireType).length) = (.ok update, after)) :
    decodeFieldsFrom schema buf pos state = decodeFieldsFrom schema buf after (update state) ∧
      decodeEmbeddedFrom schema buf pos state = decodeEmbeddedFrom schema buf after (update state) := by
  have tag := readTag_write buf rest pos field wireType small remaining
  have inside := remaining.tag_before_end
  constructor
  · refine decodeFieldsFrom_step state inside tag ?_
    rw [readField, known]
    exact value
  · rw [decodeEmbeddedFrom, if_pos inside]
    split
    · rename_i failed
      rw [tag] at failed
      cases failed
    · rename_i read
      rw [tag] at read
      cases read
      rw [known]
      dsimp only
      split
      · rename_i failed
        rw [value] at failed
        cases failed
      · rename_i read
        rw [value] at read
        cases read
        rfl

theorem decode_varint (schema : Schema State) (state : State) (set : UInt64 → State → State) (value : UInt64)
    (known : schema field 0 = some (.varint set))
    (remaining : Remaining buf pos (writeVarintField field value ++ rest)) :
    ∃ after, Remaining buf after rest ∧
      decodeFieldsFrom schema buf pos state = decodeFieldsFrom schema buf after (set value state) ∧
      decodeEmbeddedFrom schema buf pos state = decodeEmbeddedFrom schema buf after (set value state) := by
  rw [writeVarintField, List.append_assoc] at remaining
  exact ⟨_, remaining.append.append,
    decode_known state _ _ 0 (by decide) known remaining (handler_varint_read set value remaining.append)⟩

theorem decode_block (schema : Schema State) (state : State) (set : Bytes → State → State) (bytes : Bytes)
    (fits : bytes.length < 2 ^ 64) (known : schema field 2 = some (.block set))
    (remaining : Remaining buf pos (writeBytesField field bytes ++ rest)) :
    ∃ after, Remaining buf after rest ∧
      decodeFieldsFrom schema buf pos state = decodeFieldsFrom schema buf after (set bytes state) ∧
      decodeEmbeddedFrom schema buf pos state = decodeEmbeddedFrom schema buf after (set bytes state) := by
  rw [writeBytesField, List.append_assoc, List.append_assoc] at remaining
  exact ⟨_, remaining.append.append.append,
    decode_known state _ _ 2 (by decide) known remaining
      (handler_block_read set bytes fits remaining.append)⟩

end Fields

theorem TransportInstruction.decode_encode (inst : TransportInstruction)
    (diff : inst.diff.length < 2 ^ 64) (chaff : inst.chaff.length < 2 ^ 64) :
    TransportInstruction.decode inst.encode = .ok inst := by
  have start := (Remaining.start inst.encode).pad
  nth_rewrite 2 [TransportInstruction.encode] at start
  simp only [List.append_assoc] at start
  obtain ⟨_, rest, version, -⟩ := decode_varint schema .default _ _ rfl start
  obtain ⟨_, rest, old, -⟩ := decode_varint schema _ _ _ rfl rest
  obtain ⟨_, rest, new, -⟩ := decode_varint schema _ _ _ rfl rest
  obtain ⟨_, rest, ack, -⟩ := decode_varint schema _ _ _ rfl rest
  obtain ⟨_, rest, throwaway, -⟩ := decode_varint schema _ _ _ rfl rest
  obtain ⟨_, rest, body, -⟩ := decode_block schema _ _ _ diff rfl rest
  obtain ⟨_, rest, padding, -⟩ := decode_block schema _ _ _ chaff rfl rest
  rw [decode, version, old, new, ack, throwaway, body, padding, decodeFieldsFrom_done _ rest]
  simp

theorem writeVarint_length_le (value : UInt64) : (writeVarint value).length ≤ 10 := by
  rw [writeVarint_eq]
  exact Base128.encode_length_le _ 9 (Nat.lt_trans value.toNat_lt (by decide))

theorem writeBytesField_length_le (field : UInt32) (bytes : Bytes) :
    (writeBytesField field bytes).length ≤ 20 + bytes.length := by
  have tag := writeVarint_length_le ((field.toUInt64 <<< 3) ||| (2 : UInt8).toUInt64)
  have size := writeVarint_length_le (UInt64.ofNat bytes.length)
  simp only [writeBytesField, writeTag, List.length_append]
  omega

theorem writeVarintField_length_le (field : UInt32) (value : UInt64) :
    (writeVarintField field value).length ≤ 20 := by
  have tag := writeVarint_length_le ((field.toUInt64 <<< 3) ||| (0 : UInt8).toUInt64)
  have body := writeVarint_length_le value
  simp only [writeVarintField, writeTag, List.length_append]
  omega

theorem encodeResize_length_le (width height : Int32) : (encodeResize width height).length ≤ 60 := by
  have wide := writeVarintField_length_le 5 (int32AsUInt64 width)
  have high := writeVarintField_length_le 6 (int32AsUInt64 height)
  have outer := writeBytesField_length_le 3
    (writeVarintField 5 (int32AsUInt64 width) ++ writeVarintField 6 (int32AsUInt64 height))
  simp only [encodeResize, writeMessageField, List.length_append] at *
  omega

theorem TransportInstruction.encode_length_le (inst : TransportInstruction) :
    inst.encode.length ≤ inst.diff.length + inst.chaff.length + 140 := by
  have version := writeVarintField_length_le 1 inst.protocolVersion.toUInt64
  have old := writeVarintField_length_le 2 inst.oldNum
  have new := writeVarintField_length_le 3 inst.newNum
  have ack := writeVarintField_length_le 4 inst.ackNum
  have throwaway := writeVarintField_length_le 5 inst.throwawayNum
  have diff := writeBytesField_length_le 6 inst.diff
  have chaff := writeBytesField_length_le 7 inst.chaff
  simp only [encode, List.length_append]
  omega

theorem int32_round_trip (value : Int32) : uint64AsInt32 (int32AsUInt64 value) = value := by
  apply Int32.toBitVec_inj.mp
  change BitVec.setWidth 32 (BitVec.signExtend 64 value.toBitVec) = value.toBitVec
  apply BitVec.eq_of_getLsbD_eq
  intro i bound
  simp only [BitVec.getLsbD_setWidth, BitVec.getLsbD_signExtend, bound, show i < 64 by omega,
    decide_true, Bool.true_and, if_true]

theorem decodeBytesBlock_encode {Instruction : Type} (make : Bytes → Instruction) (bytes : Bytes)
    (result : Instruction) (fits : bytes.length < 2 ^ 64) :
    decodeBytesBlock make (writeBytesField 4 bytes) result = make bytes := by
  obtain ⟨_, rest, -, body⟩ := decode_block (bytesBlockSchema make) result _ bytes fits rfl
    (Remaining.start (writeBytesField 4 bytes)).pad
  rw [decodeBytesBlock, body, decodeEmbeddedFrom_done _ rest]

theorem decodeResizeBlock_encode (width height : Int32) :
    decodeResizeBlock (writeVarintField 5 (int32AsUInt64 width) ++
      writeVarintField 6 (int32AsUInt64 height)) = (width, height) := by
  obtain ⟨_, rest, -, wide⟩ := decode_varint resizeBlockSchema (0, 0) _
    (int32AsUInt64 width) rfl (Remaining.start (writeVarintField 5 (int32AsUInt64 width) ++
      writeVarintField 6 (int32AsUInt64 height)))
  obtain ⟨_, rest, -, high⟩ := decode_varint resizeBlockSchema _ _
    (int32AsUInt64 height) rfl rest.pad
  rw [decodeResizeBlock, wide, high, decodeEmbeddedFrom_done _ rest, int32_round_trip, int32_round_trip]

/-- What a `Vec<u8>` of the source can hold: its length never passes `isize::MAX`. -/
def isizeMax : Nat := 2 ^ 63 - 1

def TransportInstruction.Fits (inst : TransportInstruction) : Prop :=
  inst.diff.length ≤ isizeMax ∧ inst.chaff.length ≤ isizeMax

/-- The loop of both messages reads back what their writers wrote, one embedded instruction a turn. -/
theorem decode_instructions {Instruction : Type} (encodeOne : Instruction → Bytes)
    (decodeOne : Bytes → Instruction) (instructions done : List Instruction) (buf : Bytes) (pos : Nat)
    (short : ∀ instruction ∈ instructions, (encodeOne instruction).length < 2 ^ 64)
    (inverse : ∀ instruction ∈ instructions, decodeOne (encodeOne instruction) = instruction)
    (remaining : Remaining buf pos
      (instructions.flatMap fun instruction => writeMessageField 1 (encodeOne instruction))) :
    decodeFieldsFrom (instructionsSchema decodeOne) buf pos done = .ok (done ++ instructions) := by
  induction instructions generalizing done pos with
  | nil => rw [decodeFieldsFrom_done _ remaining, List.append_nil]
  | cons instruction instructions ih =>
    obtain ⟨_, rest, step, -⟩ := decode_block (instructionsSchema decodeOne) done _
      (encodeOne instruction) (short instruction (by simp)) rfl remaining
    rw [step, ih _ _ (fun other member => short other (by simp [member]))
      (fun other member => inverse other (by simp [member])) rest,
      inverse instruction (by simp), List.append_assoc, List.singleton_append]

theorem bytes_instruction_length {bytes : Bytes} (fits : bytes.length ≤ isizeMax) :
    (writeBytesField 4 bytes).length < 2 ^ 64 ∧
      (writeMessageField 2 (writeBytesField 4 bytes)).length < 2 ^ 64 := by
  have inner := writeBytesField_length_le 4 bytes
  have outer := writeBytesField_length_le 2 (writeBytesField 4 bytes)
  unfold isizeMax at fits
  unfold writeMessageField
  exact ⟨by omega, by omega⟩

theorem resize_block_length (width height : Int32) :
    (writeVarintField 5 (int32AsUInt64 width) ++ writeVarintField 6 (int32AsUInt64 height)).length <
      2 ^ 64 := by
  have outer := encodeResize_length_le width height
  simp only [encodeResize, writeMessageField, writeBytesField, List.length_append] at outer ⊢
  omega

namespace UserMessage

def Fits : UserInstruction → Prop
  | .keystroke keys => keys.length ≤ isizeMax
  | .resize _ _ => True

theorem decode_instruction (instruction : UserInstruction) (fits : Fits instruction) :
    decodeUserInstruction (encodeInstruction instruction) = instruction := by
  have start := (Remaining.start (encodeInstruction instruction)).pad
  unfold decodeUserInstruction
  cases instruction with
  | keystroke keys =>
    have bound : keys.length ≤ 2 ^ 63 - 1 := fits
    obtain ⟨_, rest, -, body⟩ := decode_block instructionSchema (.keystroke []) _
      (writeBytesField 4 keys) (bytes_instruction_length fits).1 rfl start
    rw [body, decodeEmbeddedFrom_done _ rest, decodeBytesBlock_encode _ _ _ (by omega)]
  | resize width height =>
    obtain ⟨_, rest, -, body⟩ := decode_block instructionSchema (.keystroke []) _
      (writeVarintField 5 (int32AsUInt64 width) ++ writeVarintField 6 (int32AsUInt64 height))
      (resize_block_length width height) rfl start
    rw [body, decodeEmbeddedFrom_done _ rest, decodeResizeBlock_encode]

theorem encodeInstruction_length (instruction : UserInstruction) (fits : Fits instruction) :
    (encodeInstruction instruction).length < 2 ^ 64 := by
  cases instruction with
  | keystroke keys => exact (bytes_instruction_length fits).2
  | resize width height => exact Nat.lt_of_le_of_lt (encodeResize_length_le width height) (by decide)

theorem decode_encode (message : UserMessage)
    (fits : ∀ instruction ∈ message.instructions, Fits instruction) :
    decode message.encode = .ok message := by
  rw [decode, decode_instructions encodeInstruction decodeUserInstruction message.instructions []
    message.encode 0
    (fun instruction member => encodeInstruction_length instruction (fits instruction member))
    (fun instruction member => decode_instruction instruction (fits instruction member)) (Remaining.start _)]
  rfl

end UserMessage

namespace HostMessage

def Fits : HostInstruction → Prop
  | .hostBytes hoststring => hoststring.length ≤ isizeMax
  | .resize _ _ => True
  | .echoAck _ => True

theorem encodeEchoAck_length_le (num : UInt64) :
    (writeVarintField 8 num).length ≤ 20 ∧ (writeMessageField 7 (writeVarintField 8 num)).length ≤ 40 := by
  have tag := writeVarint_length_le (((8 : UInt32).toUInt64 <<< 3) ||| (0 : UInt8).toUInt64)
  have value := writeVarint_length_le num
  have outer := writeBytesField_length_le 7 (writeVarintField 8 num)
  simp only [writeMessageField, writeVarintField, writeTag, List.length_append] at *
  exact ⟨by omega, by omega⟩

theorem decodeEchoAckBlock_encode (num : UInt64) (result : HostInstruction) :
    decodeEchoAckBlock (writeVarintField 8 num) result = .echoAck num := by
  obtain ⟨_, rest, -, body⟩ := decode_varint echoAckBlockSchema result _ num rfl
    (Remaining.start (writeVarintField 8 num)).pad
  rw [decodeEchoAckBlock, body, decodeEmbeddedFrom_done _ rest]

theorem decode_instruction (instruction : HostInstruction) (fits : Fits instruction) :
    decodeHostInstruction (encodeInstruction instruction) = instruction := by
  have start := (Remaining.start (encodeInstruction instruction)).pad
  unfold decodeHostInstruction
  cases instruction with
  | hostBytes hoststring =>
    have bound : hoststring.length ≤ 2 ^ 63 - 1 := fits
    obtain ⟨_, rest, -, body⟩ := decode_block instructionSchema (.hostBytes []) _
      (writeBytesField 4 hoststring) (bytes_instruction_length fits).1 rfl start
    rw [body, decodeEmbeddedFrom_done _ rest, decodeBytesBlock_encode _ _ _ (by omega)]
  | resize width height =>
    obtain ⟨_, rest, -, body⟩ := decode_block instructionSchema (.hostBytes []) _
      (writeVarintField 5 (int32AsUInt64 width) ++ writeVarintField 6 (int32AsUInt64 height))
      (resize_block_length width height) rfl start
    rw [body, decodeEmbeddedFrom_done _ rest, decodeResizeBlock_encode]
  | echoAck num =>
    have short := (encodeEchoAck_length_le num).1
    obtain ⟨_, rest, -, body⟩ := decode_block instructionSchema (.hostBytes []) _
      (writeVarintField 8 num) (by omega) rfl start
    rw [body, decodeEmbeddedFrom_done _ rest, decodeEchoAckBlock_encode]

theorem encodeInstruction_length (instruction : HostInstruction) (fits : Fits instruction) :
    (encodeInstruction instruction).length < 2 ^ 64 := by
  cases instruction with
  | hostBytes hoststring => exact (bytes_instruction_length fits).2
  | resize width height => exact Nat.lt_of_le_of_lt (encodeResize_length_le width height) (by decide)
  | echoAck num => exact Nat.lt_of_le_of_lt (encodeEchoAck_length_le num).2 (by decide)

theorem decode_encode (message : HostMessage)
    (fits : ∀ instruction ∈ message.instructions, Fits instruction) :
    decode message.encode = .ok message := by
  rw [decode, decode_instructions encodeInstruction decodeHostInstruction message.instructions []
    message.encode 0
    (fun instruction member => encodeInstruction_length instruction (fits instruction member))
    (fun instruction member => decode_instruction instruction (fits instruction member)) (Remaining.start _)]
  rfl

end HostMessage

/-- Every schema reads back what it wrote, whatever the fields hold. -/
theorem codec_round_trip :
    (∀ inst : TransportInstruction, inst.Fits → TransportInstruction.decode inst.encode = .ok inst) ∧
      (∀ message : UserMessage, (∀ instruction ∈ message.instructions, UserMessage.Fits instruction) →
        UserMessage.decode message.encode = .ok message) ∧
      (∀ message : HostMessage, (∀ instruction ∈ message.instructions, HostMessage.Fits instruction) →
        HostMessage.decode message.encode = .ok message) := by
  refine ⟨?_, UserMessage.decode_encode, HostMessage.decode_encode⟩
  rintro inst ⟨diff, chaff⟩
  unfold isizeMax at diff chaff
  exact inst.decode_encode (by omega) (by omega)

theorem codec_round_trip_negative_size :
    UserMessage.decode (UserMessage.encode ⟨[.keystroke [], .resize (-1) 24, .keystroke [3, 255]]⟩) =
        .ok ⟨[.keystroke [], .resize (-1) 24, .keystroke [3, 255]]⟩ ∧
      HostMessage.decode (HostMessage.encode ⟨[.echoAck shutdownNum, .hostBytes [], .resize 80 (-24)]⟩) =
        .ok ⟨[.echoAck shutdownNum, .hostBytes [], .resize 80 (-24)]⟩ :=
  ⟨codec_round_trip.2.1 _ (by simp [UserMessage.Fits, isizeMax]),
    codec_round_trip.2.2 _ (by simp [HostMessage.Fits, isizeMax])⟩

end MoshModel
