import MoshClient.Wire.Primitives

namespace MoshModel

/-- `TransportBuffers.Instruction`; `newNum = shutdownNum` is the shutdown convention. -/
@[ext]
structure TransportInstruction where
  protocolVersion : UInt32
  oldNum : UInt64
  newNum : UInt64
  ackNum : UInt64
  throwawayNum : UInt64
  diff : Bytes
  chaff : Bytes
deriving DecidableEq

def TransportInstruction.default : TransportInstruction :=
  { protocolVersion := 0, oldNum := 0, newNum := 0, ackNum := 0, throwawayNum := 0,
    diff := [], chaff := [] }

inductive UserInstruction where
  | keystroke (keys : Bytes)
  | resize (width height : Int32)
deriving DecidableEq

structure UserMessage where
  instructions : List UserInstruction
deriving DecidableEq

inductive HostInstruction where
  | hostBytes (hoststring : Bytes)
  | resize (width height : Int32)
  | echoAck (num : UInt64)
deriving DecidableEq

structure HostMessage where
  instructions : List HostInstruction
deriving DecidableEq

def moshProtocolVersion : UInt32 := 2
def shutdownNum : UInt64 := 0xFFFFFFFFFFFFFFFF

namespace TransportInstruction

def encode (inst : TransportInstruction) : Bytes :=
  writeVarintField 1 inst.protocolVersion.toUInt64 ++ writeVarintField 2 inst.oldNum ++
    writeVarintField 3 inst.newNum ++ writeVarintField 4 inst.ackNum ++
    writeVarintField 5 inst.throwawayNum ++ writeBytesField 6 inst.diff ++
    writeBytesField 7 inst.chaff

def schema : Schema TransportInstruction := fun field wireType =>
  if field = 1 ∧ wireType = 0 then
    some (.varint fun v out => { out with protocolVersion := v.toUInt32 })
  else if field = 2 ∧ wireType = 0 then some (.varint fun v out => { out with oldNum := v })
  else if field = 3 ∧ wireType = 0 then some (.varint fun v out => { out with newNum := v })
  else if field = 4 ∧ wireType = 0 then some (.varint fun v out => { out with ackNum := v })
  else if field = 5 ∧ wireType = 0 then some (.varint fun v out => { out with throwawayNum := v })
  else if field = 6 ∧ wireType = 2 then some (.block fun b out => { out with diff := b })
  else if field = 7 ∧ wireType = 2 then some (.block fun b out => { out with chaff := b })
  else none

def decode (buf : Bytes) : Except WireError TransportInstruction := decodeFieldsFrom schema buf 0 .default

end TransportInstruction

def int32AsUInt64 (value : Int32) : UInt64 := value.toInt64.toUInt64

def uint64AsInt32 (value : UInt64) : Int32 := value.toUInt32.toInt32

def encodeResize (width height : Int32) : Bytes :=
  writeMessageField 3
    (writeVarintField 5 (int32AsUInt64 width) ++ writeVarintField 6 (int32AsUInt64 height))

/-- Field 1 of both messages, once an embedded instruction is decoded. -/
def instructionsSchema {Instruction : Type} (decodeOne : Bytes → Instruction) :
    Schema (List Instruction) := fun field wireType =>
  if field = 1 ∧ wireType = 2 then some (.block fun body out => out ++ [decodeOne body]) else none

def bytesBlockSchema {Instruction : Type} (make : Bytes → Instruction) : Schema Instruction :=
  fun field wireType => if field = 4 ∧ wireType = 2 then some (.block fun bytes _ => make bytes) else none

def decodeBytesBlock {Instruction : Type} (make : Bytes → Instruction) (block : Bytes)
    (result : Instruction) : Instruction :=
  decodeEmbeddedFrom (bytesBlockSchema make) block 0 result

def resizeBlockSchema : Schema (Int32 × Int32) := fun field wireType =>
  if field = 5 ∧ wireType = 0 then some (.varint fun v size => (uint64AsInt32 v, size.2))
  else if field = 6 ∧ wireType = 0 then some (.varint fun v size => (size.1, uint64AsInt32 v))
  else none

/-- Width and height, both 0 where the block does not set them. -/
def decodeResizeBlock (block : Bytes) : Int32 × Int32 :=
  decodeEmbeddedFrom resizeBlockSchema block 0 (0, 0)

namespace UserMessage

def encodeInstruction : UserInstruction → Bytes
  | .keystroke keys => writeMessageField 2 (writeBytesField 4 keys)
  | .resize width height => encodeResize width height

def encode (message : UserMessage) : Bytes :=
  message.instructions.flatMap fun instruction => writeMessageField 1 (encodeInstruction instruction)

def instructionSchema : Schema UserInstruction := fun field wireType =>
  if field = 2 ∧ wireType = 2 then some (.block fun block result => decodeBytesBlock .keystroke block result)
  else if field = 3 ∧ wireType = 2 then
    some (.block fun block _ => .resize (decodeResizeBlock block).1 (decodeResizeBlock block).2)
  else none

/-- Unknown or unset contents decode to an empty keystroke. -/
def decodeUserInstruction (buf : Bytes) : UserInstruction :=
  decodeEmbeddedFrom instructionSchema buf 0 (.keystroke [])

def decode (buf : Bytes) : Except WireError UserMessage :=
  (decodeFieldsFrom (instructionsSchema decodeUserInstruction) buf 0 []).map fun instructions => ⟨instructions⟩

end UserMessage

namespace HostMessage

def encodeInstruction : HostInstruction → Bytes
  | .hostBytes hoststring => writeMessageField 2 (writeBytesField 4 hoststring)
  | .resize width height => encodeResize width height
  | .echoAck num => writeMessageField 7 (writeVarintField 8 num)

def encode (message : HostMessage) : Bytes :=
  message.instructions.flatMap fun instruction => writeMessageField 1 (encodeInstruction instruction)

def echoAckBlockSchema : Schema HostInstruction := fun field wireType =>
  if field = 8 ∧ wireType = 0 then some (.varint fun v _ => .echoAck v) else none

def decodeEchoAckBlock (block : Bytes) (result : HostInstruction) : HostInstruction :=
  decodeEmbeddedFrom echoAckBlockSchema block 0 result

def instructionSchema : Schema HostInstruction := fun field wireType =>
  if field = 2 ∧ wireType = 2 then some (.block fun block result => decodeBytesBlock .hostBytes block result)
  else if field = 3 ∧ wireType = 2 then
    some (.block fun block _ => .resize (decodeResizeBlock block).1 (decodeResizeBlock block).2)
  else if field = 7 ∧ wireType = 2 then some (.block decodeEchoAckBlock)
  else none

def decodeHostInstruction (buf : Bytes) : HostInstruction :=
  decodeEmbeddedFrom instructionSchema buf 0 (.hostBytes [])

def decode (buf : Bytes) : Except WireError HostMessage :=
  (decodeFieldsFrom (instructionsSchema decodeHostInstruction) buf 0 []).map fun instructions => ⟨instructions⟩

end HostMessage

end MoshModel
