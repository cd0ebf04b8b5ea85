import MoshClient.Wire.RoundTrip

namespace MoshModel

class SspSentState (S : Type) where
  diffFrom : S → S → Bytes
  subtract : S → S → S

structure TimestampedState (S : Type) where
  timestamp : Nat
  num : UInt64
  state : S
deriving DecidableEq

inductive UserEvent where
  | byte (b : UInt8)
  | resize (width height : Int32)
deriving DecidableEq

@[ext]
structure UserStream where
  events : List UserEvent
deriving DecidableEq

namespace UserStream

def new : UserStream := ⟨[]⟩

def pushBytes (stream : UserStream) (bytes : Bytes) : UserStream :=
  ⟨stream.events ++ bytes.map .byte⟩

def pushResize (stream : UserStream) (width height : Int32) : UserStream :=
  ⟨stream.events ++ [.resize width height]⟩

/-- One turn of the loop of `encode_suffix`: consecutive bytes share a keystroke instruction. -/
def pushEvent (instructions : List UserInstruction) : UserEvent → List UserInstruction
  | .byte b =>
    match instructions.getLast? with
    | some (.keystroke keys) => instructions.dropLast ++ [.keystroke (keys ++ [b])]
    | _ => instructions ++ [.keystroke [b]]
  | .resize width height => instructions ++ [.resize width height]

def coalesce (events : List UserEvent) : List UserInstruction := events.foldl pushEvent []

def encodeSuffix (stream : UserStream) (start : Nat) : Bytes :=
  UserMessage.encode ⟨coalesce (stream.events.drop start)⟩

def commonPrefixLen (stream other : UserStream) : Nat :=
  ((stream.events.zip other.events).takeWhile fun pair => pair.1 == pair.2).length

def diffFrom (stream existing : UserStream) : Bytes :=
  stream.encodeSuffix (stream.commonPrefixLen existing)

def subtract (stream known : UserStream) : UserStream :=
  if stream = known then ⟨[]⟩ else ⟨stream.events.drop (stream.commonPrefixLen known)⟩

def applyInstruction (stream : UserStream) : UserInstruction → UserStream
  | .keystroke keys => stream.pushBytes keys
  | .resize width height => stream.pushResize width height

def applyString (stream : UserStream) (diff : Bytes) : Except WireError UserStream :=
  (UserMessage.decode diff).map fun message => message.instructions.foldl applyInstruction stream

end UserStream

instance : SspSentState UserStream where
  diffFrom := UserStream.diffFrom
  subtract := UserStream.subtract

namespace UserStream

def eventsOf : UserInstruction → List UserEvent
  | .keystroke keys => keys.map .byte
  | .resize width height => [.resize width height]

theorem pushEvent_events (instructions : List UserInstruction) (event : UserEvent) :
    (pushEvent instructions event).flatMap eventsOf = instructions.flatMap eventsOf ++ [event] := by
  cases event with
  | resize width height => simp [pushEvent, eventsOf]
  | byte b =>
    unfold pushEvent
    dsimp only
    split
    · rename_i keys last
      have split := List.dropLast_append_getLast? (UserInstruction.keystroke keys) last
      conv_rhs => rw [← split]
      simp [eventsOf]
    · simp [eventsOf]

theorem coalesce_events (events : List UserEvent) : (coalesce events).flatMap eventsOf = events := by
  have fold : ∀ (events : List UserEvent) (done : List UserInstruction),
      (events.foldl pushEvent done).flatMap eventsOf = done.flatMap eventsOf ++ events := by
    intro events
    induction events with
    | nil => simp
    | cons event events ih =>
      intro done
      rw [List.foldl_cons, ih, pushEvent_events, List.append_assoc, List.singleton_append]
  simpa [coalesce] using fold events []

theorem applyInstruction_events (stream : UserStream) (instruction : UserInstruction) :
    (stream.applyInstruction instruction).events = stream.events ++ eventsOf instruction := by
  cases instruction <;> rfl

theorem foldl_applyInstruction (stream : UserStream) (instructions : List UserInstruction) :
    (instructions.foldl applyInstruction stream).events =
      stream.events ++ instructions.flatMap eventsOf := by
  induction instructions generalizing stream with
  | nil => simp
  | cons instruction instructions ih =>
    rw [List.foldl_cons, ih, applyInstruction_events, List.flatMap_cons, List.append_assoc]

theorem eventsOf_length_le (instructions : List UserInstruction) (instruction : UserInstruction)
    (member : instruction ∈ instructions) :
    (eventsOf instruction).length ≤ (instructions.flatMap eventsOf).length := by
  obtain ⟨left, right, rfl⟩ := List.append_of_mem member
  simp only [List.flatMap_append, List.flatMap_cons, List.length_append]
  omega

theorem coalesce_fits (events : List UserEvent) (bound : events.length ≤ isizeMax) :
    ∀ instruction ∈ coalesce events, UserMessage.Fits instruction := by
  intro instruction member
  have short := eventsOf_length_le _ _ member
  rw [coalesce_events] at short
  cases instruction with
  | keystroke keys =>
    simp only [eventsOf, List.length_map] at short
    exact Nat.le_trans short bound
  | resize width height => exact True.intro

theorem commonPrefixLen_append (base left right : List UserEvent) :
    commonPrefixLen ⟨base ++ left⟩ ⟨base ++ right⟩ = base.length + commonPrefixLen ⟨left⟩ ⟨right⟩ := by
  unfold commonPrefixLen
  induction base with
  | nil => simp
  | cons event base ih =>
    simp only [List.cons_append, List.zip_cons_cons, List.takeWhile_cons, beq_self_eq_true, if_true,
      List.length_cons, ih]
    omega

theorem commonPrefixLen_extension (base tail : List UserEvent) :
    commonPrefixLen ⟨base ++ tail⟩ ⟨base⟩ = base.length := by
  have split := commonPrefixLen_append base tail []
  rw [List.append_nil] at split
  rw [split]
  simp [commonPrefixLen]

theorem diffFrom_append (base left right : List UserEvent) :
    diffFrom ⟨base ++ left⟩ ⟨base ++ right⟩ = diffFrom ⟨left⟩ ⟨right⟩ := by
  simp only [diffFrom, encodeSuffix, commonPrefixLen_append, List.drop_append,
    List.drop_eq_nil_of_le (Nat.le_add_right _ _), List.nil_append, Nat.add_sub_cancel_left]

theorem diffFrom_extension (base tail : List UserEvent) :
    diffFrom ⟨base ++ tail⟩ ⟨base⟩ = UserMessage.encode ⟨coalesce tail⟩ := by
  simp only [diffFrom, encodeSuffix, commonPrefixLen_extension, List.drop_left]

theorem subtract_prefix (known tail : List UserEvent) :
    subtract ⟨known ++ tail⟩ ⟨known⟩ = ⟨tail⟩ := by
  unfold subtract
  split
  · rename_i same
    simp only [UserStream.mk.injEq, List.append_right_eq_self] at same
    rw [same]
  · rw [commonPrefixLen_extension, List.drop_left]

theorem subtract_events {known stream : UserStream} (inside : known.events <+: stream.events) :
    known.events ++ (stream.subtract known).events = stream.events := by
  obtain ⟨tail, split⟩ := inside
  have reduced := subtract_prefix known.events tail
  rw [show stream = ⟨known.events ++ tail⟩ from UserStream.ext split.symm, reduced]

theorem applyString_diffFrom (base tail : List UserEvent) (bound : tail.length ≤ isizeMax) :
    applyString ⟨base⟩ (diffFrom ⟨base ++ tail⟩ ⟨base⟩) = .ok ⟨base ++ tail⟩ := by
  rw [diffFrom_extension, applyString, UserMessage.decode_encode ⟨coalesce tail⟩ (coalesce_fits tail bound)]
  have events := foldl_applyInstruction ⟨base⟩ (coalesce tail)
  rw [coalesce_events] at events
  exact congrArg Except.ok (UserStream.ext events)

theorem encode_ne_nil (instruction : UserInstruction) (instructions : List UserInstruction) :
    UserMessage.encode ⟨instruction :: instructions⟩ ≠ [] := by
  have tag := writeVarint_ne_nil (((1 : UInt32).toUInt64 <<< 3) ||| (2 : UInt8).toUInt64)
  simp only [UserMessage.encode, List.flatMap_cons, writeMessageField, writeBytesField, writeTag,
    List.append_assoc, ne_eq, List.append_eq_nil_iff, not_and]
  exact fun empty => absurd empty tag

theorem diffFrom_extension_eq_nil_iff (base tail : List UserEvent) :
    diffFrom ⟨base ++ tail⟩ ⟨base⟩ = [] ↔ tail = [] := by
  rw [diffFrom_extension]
  constructor
  · intro empty
    cases instructions : coalesce tail with
    | nil =>
      have events := coalesce_events tail
      rw [instructions] at events
      simpa using events.symm
    | cons instruction rest =>
      rw [instructions] at empty
      exact absurd empty (encode_ne_nil _ _)
  · rintro rfl
    rfl

end UserStream

end MoshModel
