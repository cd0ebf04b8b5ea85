import MoshClient.Ssp.UserStream

namespace MoshModel

def ackDelayMs : Nat := 100
def sentQueueCap : Nat := 32

/-- The sender's unacknowledged states, oldest first, with the index of the one it takes the peer to
    hold. -/
structure SentQueue (S : Type) where
  sentStates : List (TimestampedState S)
  assumedReceiver : Nat
  inRange : assumedReceiver < sentStates.length

namespace SentQueue

variable {S : Type}

theorem nonempty (queue : SentQueue S) : queue.sentStates ≠ [] :=
  List.ne_nil_of_length_pos (Nat.zero_lt_of_lt queue.inRange)

def new (timestamp : Nat) (initial : S) : SentQueue S :=
  { sentStates := [{ timestamp := timestamp, num := 0, state := initial }], assumedReceiver := 0,
    inRange := Nat.zero_lt_one }

def front (queue : SentQueue S) : TimestampedState S := queue.sentStates.head queue.nonempty

def back (queue : SentQueue S) : TimestampedState S := queue.sentStates.getLast queue.nonempty

def assumed (queue : SentQueue S) : TimestampedState S :=
  queue.sentStates.get ⟨queue.assumedReceiver, queue.inRange⟩

def freshWalk (now rto : Nat) : List (TimestampedState S) → Nat
  | [] => 0
  | s :: rest => if now - s.timestamp < rto + ackDelayMs then freshWalk now rto rest + 1 else 0

theorem freshWalk_le (now rto : Nat) (states : List (TimestampedState S)) :
    freshWalk now rto states ≤ states.length := by
  induction states with
  | nil => exact Nat.le_refl _
  | cons s rest ih =>
    unfold freshWalk
    split
    · exact Nat.succ_le_succ ih
    · exact Nat.zero_le _

def assume (queue : SentQueue S) (index : Nat) (inRange : index < queue.sentStates.length) : SentQueue S :=
  { queue with assumedReceiver := index, inRange := inRange }

def updateAssumedReceiverState (queue : SentQueue S) (now rto : Nat) : SentQueue S :=
  queue.assume (freshWalk now rto queue.sentStates.tail) <| by
    have bound := freshWalk_le now rto queue.sentStates.tail
    have := queue.inRange
    rw [List.length_tail] at bound
    omega

def assumeFront (queue : SentQueue S) : SentQueue S := queue.assume 0 (Nat.zero_lt_of_lt queue.inRange)

def assumeBack (queue : SentQueue S) : SentQueue S :=
  queue.assume (queue.sentStates.length - 1) (Nat.sub_lt (Nat.zero_lt_of_lt queue.inRange) Nat.zero_lt_one)

def mapStates (queue : SentQueue S) (change : S → S) : SentQueue S :=
  { sentStates := queue.sentStates.map fun s => { s with state := change s.state },
    assumedReceiver := queue.assumedReceiver, inRange := by rw [List.length_map]; exact queue.inRange }

def processAcknowledgmentThrough (queue : SentQueue S) (ack : UInt64) : SentQueue S :=
  if known : queue.sentStates.any fun s => s.num = ack then
    let kept := queue.sentStates.filter fun s => ack ≤ s.num
    { sentStates := kept, assumedReceiver := min queue.assumedReceiver (kept.length - 1),
      inRange := by
        obtain ⟨s, member, same⟩ := List.any_eq_true.mp known
        have stays : s ∈ kept := List.mem_filter.mpr ⟨member, by simp_all⟩
        have := List.length_pos_of_mem stays
        omega }
  else queue

/-- `add_sent_state`: a queue over its cap loses a state from the middle, and the index stays on the
    state it was on. -/
def addSentState (queue : SentQueue S) (timestamp : Nat) (num : UInt64) (state : S) : SentQueue S :=
  let pushed := queue.sentStates ++ [{ timestamp := timestamp, num := num, state := state }]
  if overfull : sentQueueCap < pushed.length then
    let idx := pushed.length - 16
    { sentStates := pushed.eraseIdx idx
      assumedReceiver :=
        if idx < queue.assumedReceiver then queue.assumedReceiver - 1
        else if queue.assumedReceiver = idx then 0 else queue.assumedReceiver
      inRange := by
        have := queue.inRange
        simp only [sentQueueCap, pushed, List.length_append, List.length_singleton] at overfull
        have erased : (pushed.eraseIdx idx).length = queue.sentStates.length := by
          rw [List.length_eraseIdx]
          simp only [pushed, idx, List.length_append, List.length_singleton]
          split <;> omega
        rw [erased]
        split
        · omega
        · split <;> omega }
  else
    { sentStates := pushed, assumedReceiver := queue.assumedReceiver,
      inRange := by
        have := queue.inRange
        simp only [pushed, List.length_append]
        omega }

def refreshBack (queue : SentQueue S) (timestamp : Nat) : SentQueue S :=
  { sentStates := queue.sentStates.dropLast ++ [{ queue.back with timestamp := timestamp }],
    assumedReceiver := queue.assumedReceiver,
    inRange := by
      have := queue.inRange
      simp only [List.length_append, List.length_dropLast, List.length_singleton]
      omega }

end SentQueue

end MoshModel
