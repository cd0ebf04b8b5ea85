import Mathlib.Data.List.Chain
import MoshClient.Ssp.UserStream

namespace MoshModel

namespace UserStream

def isKeystroke : UserInstruction → Bool
  | .keystroke _ => true
  | .resize _ _ => false

def Apart (first second : UserInstruction) : Prop := ¬ (isKeystroke first = true ∧ isKeystroke second = true)

/-- Every keystroke has bytes and is followed by a resize or by nothing. -/
structure Coalesced (instructions : List UserInstruction) : Prop where
  filled : UserInstruction.keystroke [] ∉ instructions
  apart : instructions.IsChain Apart

/-- `apply_string` with what it leaves of the stream, an error included: the message is decoded first. -/
def applyStringInPlace (stream : UserStream) (diff : Bytes) : Except WireError Unit × UserStream :=
  match UserMessage.decode diff with
  | .error e => (.error e, stream)
  | .ok message => (.ok (), message.instructions.foldl applyInstruction stream)

theorem applyString_eq_inPlace (stream : UserStream) (diff : Bytes) :
    stream.applyString diff = (stream.applyStringInPlace diff).1.map fun _ => (stream.applyStringInPlace diff).2 := by
  unfold applyString applyStringInPlace
  cases UserMessage.decode diff <;> rfl

variable {instructions front : List UserInstruction} {instruction : UserInstruction}

theorem coalesced_snoc : Coalesced (front ++ [instruction]) ↔ Coalesced front ∧
    instruction ≠ .keystroke [] ∧ ∀ last ∈ front.getLast?, Apart last instruction := by
  constructor
  · rintro ⟨filled, apart⟩
    obtain ⟨before, -, between⟩ := List.isChain_append.mp apart
    rw [List.mem_append, List.mem_singleton, not_or] at filled
    exact ⟨⟨filled.1, before⟩, fun empty => filled.2 empty.symm, fun last ends => between last ends instruction rfl⟩
  · rintro ⟨⟨filled, before⟩, nonempty, between⟩
    constructor
    · rw [List.mem_append, List.mem_singleton, not_or]
      exact ⟨filled, fun empty => nonempty empty.symm⟩
    · apply List.isChain_append.mpr
      exact ⟨before, List.isChain_singleton _, fun last ends _ first => by cases first; exact between last ends⟩

theorem pushEvent_coalesced (coalesced : Coalesced instructions) (event : UserEvent) :
    Coalesced (pushEvent instructions event) := by
  cases event with
  | resize width height => exact coalesced_snoc.mpr ⟨coalesced, nofun, fun _ _ both => by cases both.2⟩
  | byte b =>
    unfold pushEvent
    dsimp only
    split
    · rename_i keys last
      rw [← List.dropLast_append_getLast? (UserInstruction.keystroke keys) last] at coalesced
      obtain ⟨before, -, between⟩ := coalesced_snoc.mp coalesced
      exact coalesced_snoc.mpr ⟨before, by simp, between⟩
    · rename_i other
      apply coalesced_snoc.mpr
      refine ⟨coalesced, nofun, fun last ends both => ?_⟩
      cases last with
      | keystroke keys => exact other keys ends
      | resize width height => cases both.1

theorem coalesce_coalesced (events : List UserEvent) : Coalesced (coalesce events) := by
  have fold : ∀ done, Coalesced done → Coalesced (events.foldl pushEvent done) := by
    induction events with
    | nil => exact fun _ here => here
    | cons event events ih => exact fun done here => ih _ (pushEvent_coalesced here event)
  exact fold [] ⟨nofun, .nil⟩

theorem exists_beyond {stream longer : UserStream} (within : stream.events <+: longer.events) :
    ∃ tail, longer = ⟨stream.events ++ tail⟩ := by
  obtain ⟨tail, whole⟩ := within
  exact ⟨tail, UserStream.ext whole.symm⟩

/-- Diffs between streams each a prefix of the next; a stream, as a vector, has at most `isize::MAX` events. -/
theorem diff_algebra (a b c : UserStream) (first : a.events <+: b.events) (second : b.events <+: c.events)
    (short : c.events.length ≤ isizeMax) :
    b.applyString (c.diffFrom b) = .ok c ∧
    (c.diffFrom b = [] ↔ b = c) ∧
    (∀ b' c' : UserStream, ∀ beyond, c.events = b.events ++ beyond → c'.events = b'.events ++ beyond →
      c'.diffFrom b' = c.diffFrom b) ∧
    (c.subtract a).diffFrom (b.subtract a) = c.diffFrom b ∧
    ((a.applyString (b.diffFrom a)).bind fun reached => reached.applyString (c.diffFrom b)) =
      a.applyString (c.diffFrom a) ∧
    (∃ message, UserMessage.decode (c.diffFrom b) = .ok message ∧ c.diffFrom b = message.encode ∧
      Coalesced message.instructions) ∧
    ∀ (stream : UserStream) (diff : Bytes) (e : WireError), UserMessage.decode diff = .error e →
      stream.applyStringInPlace diff = (.error e, stream) := by
  obtain ⟨middle, rfl⟩ := exists_beyond first
  obtain ⟨tail, rfl⟩ := exists_beyond second
  rw [List.length_append] at short
  have middleShort : middle.length ≤ isizeMax := by
    rw [List.length_append] at short
    omega
  refine ⟨applyString_diffFrom _ tail (by omega), ?_, ?_, ?_, ?_, ?_, ?_⟩
  · rw [diffFrom_extension_eq_nil_iff]
    simp
  · intro b' c' beyond whole whole'
    cases List.append_cancel_left whole
    rw [show c' = ⟨b'.events ++ tail⟩ from UserStream.ext whole', diffFrom_extension, diffFrom_extension]
  · rw [ subtract_prefix, List.append_assoc, subtract_prefix, diffFrom_append]
  · have whole := applyString_diffFrom a.events (middle ++ tail) (by rw [List.length_append] at short ⊢; omega)
    rw [← List.append_assoc] at whole
    rw [applyString_diffFrom a.events middle middleShort, whole]
    exact applyString_diffFrom _ tail (by omega)
  · rw [diffFrom_extension]
    exact ⟨_, UserMessage.decode_encode _ (coalesce_fits tail (by omega)), rfl, coalesce_coalesced tail⟩
  · intro stream diff e fails
    rw [applyStringInPlace, fails]

theorem diff_algebra_split_run :
    let whole : UserStream := ⟨[.byte 97, .byte 98, .resize 80 24]⟩
    let part : UserStream := ⟨[.byte 97]⟩
    part.applyString (whole.diffFrom part) = .ok whole ∧ whole.diffFrom part ≠ [] := by
  obtain ⟨applied, empty, -⟩ := diff_algebra ⟨[]⟩ ⟨[.byte 97]⟩ ⟨[.byte 97, .byte 98, .resize 80 24]⟩ List.nil_prefix
    ⟨_, rfl⟩ (by decide)
  exact ⟨applied, fun nothing => absurd (empty.mp nothing) (by decide)⟩

end UserStream

end MoshModel
