import MoshClient.Ssp.QueueOrder
import MoshClient.Library.Watermark

namespace MoshModel

open Watermark

namespace SentQueue

variable {S : Type}

/-- The states and the index, without the bound that the queue carries. -/
def bare (queue : SentQueue S) : Queue (TimestampedState S) :=
  { entries := queue.sentStates, index := queue.assumedReceiver }

theorem bare_injective {left right : SentQueue S} (same : left.bare = right.bare) : left = right := by
  cases left
  cases right
  simp only [bare, Queue.mk.injEq] at same
  obtain ⟨rfl, rfl⟩ := same
  rfl

def holds (queue : SentQueue S) (num : UInt64) : Bool := queue.sentStates.any fun s => s.num = num

theorem processAcknowledgmentThrough_bare (queue : SentQueue S) (ack : UInt64) :
    (queue.processAcknowledgmentThrough ack).bare = advance TimestampedState.num queue.bare ack := by
  unfold processAcknowledgmentThrough
  split
  · rename_i known
    have held : queue.bare.holds TimestampedState.num ack = true := known
    rw [advance_of_held held]
    rfl
  · rename_i unknown
    have unheld : queue.bare.holds TimestampedState.num ack ≠ true := unknown
    rw [advance_of_unheld unheld]

theorem foldl_bare (queue : SentQueue S) (acks : List UInt64) :
    (acks.foldl processAcknowledgmentThrough queue).bare =
      acks.foldl (advance TimestampedState.num) queue.bare := by
  induction acks generalizing queue with
  | nil => rfl
  | cons ack acks ih => rw [List.foldl_cons, List.foldl_cons, ih, processAcknowledgmentThrough_bare]

/-- Any list of acks comes to the greatest of them that names a held state, or to nothing. -/
theorem foldl_acks (queue : SentQueue S) (acks : List UInt64) :
    ((∀ ack ∈ acks, queue.holds ack = false) ∧ acks.foldl processAcknowledgmentThrough queue = queue) ∨
      ∃ top ∈ acks, queue.holds top = true ∧ (∀ ack ∈ acks, queue.holds ack = true → ack ≤ top) ∧
        acks.foldl processAcknowledgmentThrough queue = queue.processAcknowledgmentThrough top := by
  have advanced := foldl_advance TimestampedState.num queue.bare acks
  rw [← foldl_bare] at advanced
  generalize seen : (acks.foldl processAcknowledgmentThrough queue).bare = result at advanced
  cases advanced with
  | rest none =>
    left
    exact ⟨fun ack member => Bool.eq_false_iff.mpr (none ack member), bare_injective seen⟩
  | moved top given held greatest =>
    rw [← processAcknowledgmentThrough_bare] at seen
    exact .inr ⟨top, given, held, greatest, bare_injective seen⟩

end SentQueue

namespace SspSender

theorem foldl_acks {S : Type} (sender : SspSender S) (acks : List UInt64) :
    acks.foldl processAcknowledgmentThrough sender =
      { sender with queue := acks.foldl SentQueue.processAcknowledgmentThrough sender.queue } := by
  induction acks generalizing sender with
  | nil => rfl
  | cons ack acks ih =>
    rw [List.foldl_cons, ih]
    rfl

end SspSender

open Transition

/-- Acks in any order and with any repetitions: only the greatest that names a held state counts. -/
theorem acks_order_independent (zlib : Zlib) (start sendMindelay : Nat) (config : SenderConfig)
    (reached : (senderMachine zlib start sendMindelay).Reachable config) (acks : List UInt64) :
    let sender := config.sender
    let after := acks.foldl SspSender.processAcknowledgmentThrough sender
    (((∀ ack ∈ acks, sender.queue.holds ack = false) ∧ after = sender) ∨
      ∃ top ∈ acks, sender.queue.holds top = true ∧ (∀ ack ∈ acks, sender.queue.holds ack = true → ack ≤ top) ∧
        after = sender.processAcknowledgmentThrough top) ∧
    (∀ others : List UInt64, (∀ ack, ack ∈ others ↔ ack ∈ acks) →
      others.foldl SspSender.processAcknowledgmentThrough sender = after) ∧
    after.queue.assumedReceiver < after.queue.sentStates.length ∧ after.queue.back = sender.queue.back := by
  have newest := (SenderConfig.reachable_queue reached).newest
  dsimp only
  generalize config.sender = sender at *
  have settled : ∀ others : List UInt64,
      ((∀ ack ∈ others, sender.queue.holds ack = false) ∧
          others.foldl SspSender.processAcknowledgmentThrough sender = sender) ∨
        ∃ top ∈ others, sender.queue.holds top = true ∧
          (∀ ack ∈ others, sender.queue.holds ack = true → ack ≤ top) ∧
          others.foldl SspSender.processAcknowledgmentThrough sender =
            sender.processAcknowledgmentThrough top := by
    intro others
    rw [SspSender.foldl_acks]
    rcases sender.queue.foldl_acks others with ⟨none, same⟩ | ⟨top, given, held, greatest, same⟩
    · exact .inl ⟨none, by rw [same]⟩
    · exact .inr ⟨top, given, held, greatest, by rw [same]; rfl⟩
  have outcome := settled acks
  refine ⟨outcome, ?_, (acks.foldl SspSender.processAcknowledgmentThrough sender).queue.inRange, ?_⟩
  · intro others alike
    rcases outcome with ⟨none, same⟩ | ⟨top, given, held, greatest, same⟩
    · rcases settled others with ⟨-, sameToo⟩ | ⟨top, given, held, -, -⟩
      · rw [same, sameToo]
      · rw [none top ((alike top).mp given)] at held
        cases held
    · rcases settled others with ⟨none, -⟩ | ⟨other, givenToo, heldToo, greatestToo, sameToo⟩
      · rw [none top ((alike top).mpr given)] at held
        cases held
      · have one : top = other := UInt64.le_antisymm
          (greatestToo top ((alike top).mpr given) held) (greatest other ((alike other).mp givenToo) heldToo)
        rw [same, sameToo, one]
  · rcases outcome with ⟨-, same⟩ | ⟨top, -, -, -, same⟩
    · rw [same]
    · rw [same]
      exact sender.queue.processAcknowledgmentThrough_back top newest

/-- A culled number, a held one, one never sent, an older held one and a repetition. -/
theorem acks_order_independent_keepalives :
    let config := unackedKeepalives.foldl (senderMachine sampleZlib 0 1).next (SenderConfig.start 0 1)
    let after := [20, 30, 99, 5, 30].foldl SspSender.processAcknowledgmentThrough config.sender
    after.queue.front.num = 30 ∧ after.queue.back = config.sender.queue.back := by
  have reached : (senderMachine sampleZlib 0 1).Reachable
      (unackedKeepalives.foldl (senderMachine sampleZlib 0 1).next (SenderConfig.start 0 1)) :=
    ⟨unackedKeepalives, Machine.Run.start.follow (by decide +kernel)⟩
  obtain ⟨-, -, -, newest⟩ := acks_order_independent sampleZlib 0 1 _ reached [20, 30, 99, 5, 30]
  constructor
  · decide +kernel
  · exact newest

end MoshModel
