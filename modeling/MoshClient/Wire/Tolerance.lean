import MoshClient.Wire.Acceptance
import Mathlib.Data.List.Induction

namespace MoshModel

theorem Field.number_eq (field : Field) (small : field.key.toNat < 2 ^ 35) (number : UInt32) :
    (field.key >>> 3).toUInt32 = number ↔ field.number = number.toNat := by
  rw [← UInt32.toNat_inj, UInt64.toNat_toUInt32, UInt64.toNat_shiftRight, Field.number]
  simp only [UInt64.reduceToNat, Nat.reduceMod, Nat.shiftRight_eq_div_pow, Nat.reducePow]
  rw [Nat.mod_eq_of_lt (by omega)]

def Field.varintAt (number : Nat) (field : Field) : Option UInt64 :=
  match field.payload with
  | .varint value => if field.number = number then some value else none
  | _ => none

def Field.blockAt (number : Nat) (field : Field) : Option Bytes :=
  match field.payload with
  | .block body => if field.number = number then some body else none
  | _ => none

theorem Field.varintAt_varint (number : Nat) (key value : UInt64) :
    Field.varintAt number ⟨key, .varint value⟩ = if key.toNat / 8 = number then some value else none := rfl

theorem Field.blockAt_block (number : Nat) (key : UInt64) (body : Bytes) :
    Field.blockAt number ⟨key, .block body⟩ = if key.toNat / 8 = number then some body else none := rfl

def lastVarint (number : Nat) (fields : List Field) : Option UInt64 :=
  (fields.filterMap (Field.varintAt number)).getLast?

def lastBlock (number : Nat) (fields : List Field) : Option Bytes :=
  (fields.filterMap (Field.blockAt number)).getLast?

def TransportInstruction.ofFields (fields : List Field) : TransportInstruction :=
  { protocolVersion := ((lastVarint 1 fields).getD 0).toUInt32
    oldNum := (lastVarint 2 fields).getD 0
    newNum := (lastVarint 3 fields).getD 0
    ackNum := (lastVarint 4 fields).getD 0
    throwawayNum := (lastVarint 5 fields).getD 0
    diff := (lastBlock 6 fields).getD []
    chaff := (lastBlock 7 fields).getD [] }

theorem lastVarint_snoc (number : Nat) (fields : List Field) (field : Field) :
    lastVarint number (fields ++ [field]) = (field.varintAt number).or (lastVarint number fields) := by
  unfold lastVarint
  rw [List.filterMap_append, List.getLast?_append]
  cases at_number : field.varintAt number <;> simp [at_number]

theorem lastBlock_snoc (number : Nat) (fields : List Field) (field : Field) :
    lastBlock number (fields ++ [field]) = (field.blockAt number).or (lastBlock number fields) := by
  unfold lastBlock
  rw [List.filterMap_append, List.getLast?_append]
  cases at_number : field.blockAt number <;> simp [at_number]

theorem updateAll_snoc {State : Type} (schema : Schema State) (fields : List Field) (field : Field) (state : State) :
    updateAll schema (fields ++ [field]) state = field.update schema (updateAll schema fields state) := by
  simp [updateAll, List.foldl_append]

theorem TransportInstruction.schema_typed : TransportInstruction.schema.Typed := by
  intro field wireType handler known
  unfold TransportInstruction.schema at known
  repeat' split at known
  all_goals grind [FieldHandler.wireType]

theorem TransportInstruction.update_varint (key value : UInt64) (small : key.toNat < 2 ^ 35)
    (out : TransportInstruction) :
    Field.update schema ⟨key, .varint value⟩ out =
      { out with
        protocolVersion := if key.toNat / 8 = 1 then value.toUInt32 else out.protocolVersion
        oldNum := if key.toNat / 8 = 2 then value else out.oldNum
        newNum := if key.toNat / 8 = 3 then value else out.newNum
        ackNum := if key.toNat / 8 = 4 then value else out.ackNum
        throwawayNum := if key.toNat / 8 = 5 then value else out.throwawayNum } := by
  have number := Field.number_eq ⟨key, .varint value⟩ small
  simp only [Field.number] at number
  simp only [Field.update, schema, number, and_true]
  generalize key.toNat / 8 = n
  by_cases known : n = 1 ∨ n = 2 ∨ n = 3 ∨ n = 4 ∨ n = 5
  · rcases known with rfl | rfl | rfl | rfl | rfl <;> rfl
  · simp only [not_or] at known
    obtain ⟨one, two, three, four, five⟩ := known
    simp [one, two, three, four, five]

theorem TransportInstruction.update_block (key : UInt64) (body : Bytes) (small : key.toNat < 2 ^ 35)
    (out : TransportInstruction) :
    Field.update schema ⟨key, .block body⟩ out =
      { out with
        diff := if key.toNat / 8 = 6 then body else out.diff
        chaff := if key.toNat / 8 = 7 then body else out.chaff } := by
  have number := Field.number_eq ⟨key, .block body⟩ small
  simp only [Field.number] at number
  simp only [Field.update, schema, number, and_true]
  generalize key.toNat / 8 = n
  by_cases known : n = 6 ∨ n = 7
  · rcases known with rfl | rfl <;> rfl
  · simp only [not_or] at known
    obtain ⟨six, seven⟩ := known
    simp [six, seven]

theorem last_getD {Value : Type} (here : Prop) [Decidable here] (value fallback : Value) (before : Option Value) :
    ((if here then some value else none).or before).getD fallback =
      if here then value else before.getD fallback := by
  split <;> rfl

theorem TransportInstruction.updateAll_eq (fields : List Field)
    (keys : ∀ field ∈ fields, field.key.toNat < 2 ^ 35) :
    updateAll schema fields .default = ofFields fields := by
  induction fields using List.reverseRecOn with
  | nil => rfl
  | append_singleton fields field ih =>
    have small := keys field (by simp)
    rw [updateAll_snoc, ih fun other member => keys other (by simp [member])]
    obtain ⟨key, payload⟩ := field
    unfold ofFields
    simp only [lastVarint_snoc, lastBlock_snoc]
    cases payload with
    | varint value =>
      rw [update_varint key value small]
      simp only [Field.varintAt_varint, last_getD, apply_ite UInt64.toUInt32]
      rfl
    | block body =>
      rw [update_block key body small]
      simp only [Field.blockAt_block, last_getD]
      rfl
    | other => rfl
def TransportInstruction.known (field : Field) : Prop :=
  match field.payload with
  | .varint _ => 1 ≤ field.number ∧ field.number ≤ 5
  | .block _ => field.number = 6 ∨ field.number = 7
  | .other => False

theorem TransportInstruction.update_unknown (field : Field) (small : field.key.toNat < 2 ^ 35)
    (unknown : ¬TransportInstruction.known field) (out : TransportInstruction) :
    field.update schema out = out := by
  obtain ⟨key, payload⟩ := field
  unfold TransportInstruction.known Field.number at unknown
  cases payload with
  | varint value =>
    rw [update_varint key value small]
    dsimp only at unknown
    generalize key.toNat / 8 = number at unknown ⊢
    have other : number ≠ 1 ∧ number ≠ 2 ∧ number ≠ 3 ∧ number ≠ 4 ∧ number ≠ 5 := by omega
    simp only [other, if_false]
  | block body =>
    rw [update_block key body small]
    dsimp only at unknown
    simp only [not_or] at unknown
    simp only [unknown, if_false]
  | other => rfl

section Instructions

variable {Instruction : Type} (decodeOne : Bytes → Instruction)

/-- One embedded instruction for each block at field 1, in order. -/
def embeddedInstructions (fields : List Field) : List Instruction :=
  (fields.filterMap (Field.blockAt 1)).map decodeOne

theorem instructionsSchema_typed : (instructionsSchema decodeOne).Typed := by
  intro field wireType handler known
  unfold instructionsSchema at known
  split at known
  · rename_i here
    rw [← Option.some.inj known]
    exact here.2
  · cases known

theorem instructions_update (field : Field) (small : field.key.toNat < 2 ^ 35) (out : List Instruction) :
    field.update (instructionsSchema decodeOne) out = out ++ ((field.blockAt 1).map decodeOne).toList := by
  have number := field.number_eq small 1
  obtain ⟨key, payload⟩ := field
  cases payload with
  | varint value => simp [Field.update, instructionsSchema, Field.blockAt]
  | block body =>
    rw [Field.blockAt_block]
    simp only [Field.update, instructionsSchema, number, and_true]
    simp only [Field.number, UInt32.reduceToNat]
    by_cases first : key.toNat / 8 = 1
    · simp [first]
    · simp [first]
  | other => simp [Field.update, Field.blockAt]

theorem instructions_updateAll (fields : List Field) (keys : ∀ field ∈ fields, field.key.toNat < 2 ^ 35) :
    updateAll (instructionsSchema decodeOne) fields [] = embeddedInstructions decodeOne fields := by
  induction fields using List.reverseRecOn with
  | nil => rfl
  | append_singleton fields field ih =>
    rw [updateAll_snoc, ih fun other member => keys other (by simp [member]),
      instructions_update decodeOne field (keys field (by simp))]
    unfold embeddedInstructions
    cases first : field.blockAt 1 <;> simp [first]

end Instructions

/-- The keys that `write_tag` can emit: field numbers of 32 bits. -/
def TagsInRange (buf : Bytes) : Prop :=
  ∀ fields, Fields buf fields → ∀ field ∈ fields, field.key.toNat < 2 ^ 35

/-- A decoder that takes exactly the concatenations of complete fields and looks at the known ones. -/
structure Tolerant {Out : Type} (decode : Bytes → Except WireError Out) (known : Field → Prop)
    (read : List Field → Out) : Prop where
  accepts : ∀ buf, TagsInRange buf → ∀ out,
    decode buf = .ok out ↔ ∃ fields, Fields buf fields ∧ out = read fields
  skips : ∀ left inserted right leftFields insertedFields, Fields left leftFields →
    Fields inserted insertedFields →
    (∀ field ∈ insertedFields, field.key.toNat < 2 ^ 35 ∧ ¬known field) →
    ∀ out, decode (left ++ inserted ++ right) = .ok out ↔ decode (left ++ right) = .ok out

section Schemas

variable {State : Type} {schema : Schema State}

theorem updateAll_unknown {known : Field → Prop}
    (unknown : ∀ field : Field, field.key.toNat < 2 ^ 35 → ¬known field → ∀ out, field.update schema out = out)
    (fields : List Field) (others : ∀ field ∈ fields, field.key.toNat < 2 ^ 35 ∧ ¬known field) (out : State) :
    updateAll schema fields out = out := by
  induction fields with
  | nil => rfl
  | cons field fields ih =>
    obtain ⟨small, other⟩ := others field (by simp)
    have rest := ih fun field member => others field (by simp [member])
    unfold updateAll at rest ⊢
    rw [List.foldl_cons, unknown field small other, rest]

theorem tolerant_of_schema {Out : Type} {known : Field → Prop} {read : List Field → Out} (typed : schema.Typed)
    (first : State) (make : State → Out)
    (reads : ∀ fields, (∀ field ∈ fields, field.key.toNat < 2 ^ 35) →
      make (updateAll schema fields first) = read fields)
    (unknown : ∀ field : Field, field.key.toNat < 2 ^ 35 → ¬known field → ∀ out, field.update schema out = out) :
    Tolerant (fun buf => (decodeFieldsFrom schema buf 0 first).map make) known read := by
  have mapped : ∀ (result : Except WireError State) (out : Out),
      result.map make = .ok out ↔ ∃ state, result = .ok state ∧ make state = out := by
    intro result out
    cases result with
    | error e => simp [Except.map]
    | ok state => simp [Except.map]
  constructor
  · intro buf keys out
    rw [mapped]
    constructor
    · rintro ⟨state, decoded, rfl⟩
      obtain ⟨fields, complete, rfl⟩ := (decodeFieldsFrom_iff typed 0 first state).mp decoded
      exact ⟨fields, complete, reads fields (keys fields complete)⟩
    · rintro ⟨fields, complete, rfl⟩
      exact ⟨_, (decodeFieldsFrom_iff typed 0 first _).mpr ⟨fields, complete, rfl⟩, reads fields (keys fields complete)⟩
  · intro left inserted right leftFields insertedFields leftComplete insertedComplete others out
    have long : Remaining (left ++ inserted ++ right) 0 (left ++ (inserted ++ right)) := List.append_assoc _ _ _
    have after := long.append.append
    rw [mapped, mapped]
    refine exists_congr fun state => and_congr_left fun _ => ?_
    rw [decodeFieldsFrom_fields typed leftComplete _ 0 first long,
      decodeFieldsFrom_fields typed insertedComplete _ _ _ long.append,
      updateAll_unknown unknown insertedFields others,
      decodeFieldsFrom_fields typed leftComplete right 0 first (Remaining.start (left ++ right)),
      decodeFieldsFrom_iff typed, decodeFieldsFrom_iff typed]
    rw [show (left ++ inserted ++ right).drop _ = right from after,
      show (left ++ right).drop _ = right from (Remaining.start (left ++ right)).append]

end Schemas

theorem instructions_tolerant {Instruction Out : Type} (decodeOne : Bytes → Instruction)
    (make : List Instruction → Out) :
    Tolerant (fun buf => (decodeFieldsFrom (instructionsSchema decodeOne) buf 0 []).map make)
      (fun field => (field.blockAt 1).isSome) fun fields => make (embeddedInstructions decodeOne fields) := by
  refine tolerant_of_schema (instructionsSchema_typed decodeOne) [] make ?_ ?_
  · intro fields keys
    rw [instructions_updateAll decodeOne fields keys]
  · intro field small other out
    rw [instructions_update decodeOne field small, Option.not_isSome_iff_eq_none.mp other]
    exact List.append_nil out

/-- The three top-level decoders accept the strings of complete fields and no others; fields they do not
    know change nothing wherever they stand. -/
theorem decoders_tolerant :
    Tolerant TransportInstruction.decode TransportInstruction.known TransportInstruction.ofFields ∧
      Tolerant UserMessage.decode (fun field => (field.blockAt 1).isSome)
        (fun fields => ⟨embeddedInstructions UserMessage.decodeUserInstruction fields⟩) ∧
      Tolerant HostMessage.decode (fun field => (field.blockAt 1).isSome)
        (fun fields => ⟨embeddedInstructions HostMessage.decodeHostInstruction fields⟩) := by
  refine ⟨?_, instructions_tolerant _ _, instructions_tolerant _ _⟩
  have tolerant := tolerant_of_schema TransportInstruction.schema_typed .default id
    TransportInstruction.updateAll_eq TransportInstruction.update_unknown
  have same : (fun buf => (decodeFieldsFrom TransportInstruction.schema buf 0 .default).map id) =
      TransportInstruction.decode := by
    funext buf
    unfold TransportInstruction.decode
    cases decodeFieldsFrom TransportInstruction.schema buf 0 .default <;> rfl
  rwa [same] at tolerant

end MoshModel
