import MoshClient.Wire.Messages

namespace MoshModel

def fragHeaderLen : Nat := 10
def decompressLimit : Nat := 4 * 1024 * 1024
def assemblyLimit : Nat := 8 * 1024 * 1024
def maxFragmentIndex : Nat := 0x7FFF

inductive FragmentError where
  | tooShort
  | assemblyTooLarge
  | indexTooLarge
  | mtuTooSmall
  | inflate (reason : String)
  | parse (reason : String)
deriving DecidableEq

structure Fragment where
  id : Nat
  fragmentNum : Nat
  final : Bool
  contents : Bytes
deriving DecidableEq

/-- The flate2 crate: `compress` is a `ZlibEncoder` run to its end, `inflate limit` a `ZlibDecoder`
    read to its end through `take(limit)`, with the text of its error. -/
structure Zlib where
  compress : Bytes → Bytes
  inflate : Nat → Bytes → Except String Bytes

def zlibCompress (zlib : Zlib) (input : Bytes) : Bytes := zlib.compress input

def zlibDecompress (zlib : Zlib) (input : Bytes) : Except FragmentError Bytes :=
  match zlib.inflate (decompressLimit + 1) input with
  | .error reason => .error (.inflate reason)
  | .ok out => if decompressLimit < out.length then .error .assemblyTooLarge else .ok out

/-- The fields of an instruction, all but its diff, that the id-bump rule compares. -/
@[ext]
structure FragmentHeader where
  protocolVersion : UInt32
  oldNum : UInt64
  newNum : UInt64
  ackNum : UInt64
  throwawayNum : UInt64
  chaff : Bytes
deriving DecidableEq

def TransportInstruction.header (inst : TransportInstruction) : FragmentHeader :=
  { protocolVersion := inst.protocolVersion, oldNum := inst.oldNum, newNum := inst.newNum,
    ackNum := inst.ackNum, throwawayNum := inst.throwawayNum, chaff := inst.chaff }

structure Fragmenter where
  nextInstructionId : Nat
  lastHeader : Option FragmentHeader
  lastMtu : Nat
deriving DecidableEq

namespace Fragmenter

def default : Fragmenter := { nextInstructionId := 0, lastHeader := none, lastMtu := 0xFFFFFFFFFFFFFFFF }

/-- The slicing loop, from one index on; an error discards the fragments cut before it. -/
def sliceFrom (id mtu index : Nat) (rest : Bytes) : Except FragmentError (List Fragment) :=
  if maxFragmentIndex < index then .error .indexTooLarge
  else if mtu < rest.length then
    (sliceFrom id mtu (index + 1) (rest.drop mtu)).map fun fragments =>
      { id := id, fragmentNum := index, final := false, contents := rest.take mtu } :: fragments
  else .ok [{ id := id, fragmentNum := index, final := true, contents := rest }]
termination_by maxFragmentIndex + 1 - index

def makeFragments (zlib : Zlib) (fragmenter : Fragmenter) (inst : TransportInstruction) (mtu : Nat) :
    Except FragmentError (List Fragment) × Fragmenter :=
  let budget := mtu - fragHeaderLen
  if budget = 0 then (.error .mtuTooSmall, fragmenter)
  else
    let id := if fragmenter.lastHeader ≠ some inst.header ∨ fragmenter.lastMtu ≠ budget
      then fragmenter.nextInstructionId + 1 else fragmenter.nextInstructionId
    (sliceFrom id budget 0 (zlibCompress zlib inst.encode),
      { nextInstructionId := id, lastHeader := some inst.header, lastMtu := budget })

end Fragmenter

structure FragmentAssembly where
  fragments : List (Option Fragment)
  currentId : Nat
  fragmentsArrived : Nat
  fragmentsTotal : Option Nat
  assembledBytes : Nat
deriving DecidableEq

inductive Gathered where
  | tooLarge
  | hole
  | whole (bytes : Nat) (encoded : Bytes)

namespace FragmentAssembly

def new : FragmentAssembly :=
  { fragments := [], currentId := 0, fragmentsArrived := 0, fragmentsTotal := none, assembledBytes := 0 }

def reset (assembly : FragmentAssembly) : FragmentAssembly :=
  { assembly with fragments := [], fragmentsArrived := 0, fragmentsTotal := none, assembledBytes := 0 }

def gather : List (Option Fragment) → Nat → Bytes → Gathered
  | [], bytes, encoded => .whole bytes encoded
  | none :: _, _, _ => .hole
  | some frag :: slots, bytes, encoded =>
    if assemblyLimit < bytes + frag.contents.length then .tooLarge
    else gather slots (bytes + frag.contents.length) (encoded ++ frag.contents)

-- A stream that does not inflate or parse leaves through `?`, without the reset.
def takeAssembly (zlib : Zlib) (assembly : FragmentAssembly) :
    Option TransportInstruction × FragmentAssembly :=
  match gather assembly.fragments assembly.assembledBytes [] with
  | .tooLarge => (none, assembly.reset)
  | .hole => (none, assembly.reset)
  | .whole bytes encoded =>
    let counted := { assembly with assembledBytes := bytes }
    match zlibDecompress zlib encoded with
    | .error _ => (none, counted)
    | .ok inflated =>
      match TransportInstruction.decode inflated with
      | .error _ => (none, counted)
      | .ok inst => (some inst, counted.reset)

def place (assembly : FragmentAssembly) (frag : Fragment) : Option FragmentAssembly :=
  let idx := frag.fragmentNum
  if assembly.currentId ≠ frag.id then
    some { fragments := (List.replicate (idx + 1) none).set idx (some frag), currentId := frag.id,
           fragmentsArrived := 1, fragmentsTotal := none, assembledBytes := 0 }
  else
    let slots := assembly.fragments ++ List.replicate (idx + 1 - assembly.fragments.length) none
    match slots[idx]? with
    | some (some existing) => if existing ≠ frag then none else some { assembly with fragments := slots }
    | _ => some { assembly with fragments := slots.set idx (some frag),
                                fragmentsArrived := assembly.fragmentsArrived + 1 }

/-- What a final fragment says about the total; a truncation recounts the slots it leaves. -/
def noteFinal (assembly : FragmentAssembly) (frag : Fragment) : FragmentAssembly :=
  if frag.final then
    let total := frag.fragmentNum + 1
    let truncated :=
      if total < assembly.fragments.length then
        { assembly with fragments := assembly.fragments.take total,
                        fragmentsArrived := (assembly.fragments.take total).countP Option.isSome }
      else assembly
    { truncated with fragmentsTotal := some total }
  else assembly

def addFragment (zlib : Zlib) (assembly : FragmentAssembly) (frag : Fragment) :
    Option TransportInstruction × FragmentAssembly :=
  match assembly.place frag with
  | none => (none, assembly)
  | some placed =>
    let noted := placed.noteFinal frag
    if noted.fragmentsTotal = some noted.fragmentsArrived then noted.takeAssembly zlib else (none, noted)

end FragmentAssembly

end MoshModel
