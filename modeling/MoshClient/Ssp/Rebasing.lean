import MoshClient.Ssp.Chronicle

namespace MoshModel

namespace SspSender

variable {sender : SspSender UserStream}

/-- The stored streams extend one another, up to the current one. -/
structure Nested (sender : SspSender UserStream) : Prop where
  streams : sender.queue.sentStates.Pairwise fun earlier later => earlier.state.events <+: later.state.events
  current : ∀ s ∈ sender.queue.sentStates, s.state.events <+: sender.currentState.events

theorem Nested.front_begins (nested : sender.Nested) {s : TimestampedState UserStream}
    (stored : s ∈ sender.queue.sentStates) : sender.queue.front.state.events <+: s.state.events := by
  have order := nested.streams
  have head := sender.queue.head?_eq_front
  cases states : sender.queue.sentStates with
  | nil => exact absurd states sender.queue.nonempty
  | cons first rest =>
    rw [states] at order head stored
    obtain rfl := Option.some.inj head
    rcases List.mem_cons.mp stored with rfl | later
    · exact List.prefix_refl _
    · exact (List.pairwise_cons.mp order).1 s later

theorem Nested.begins_back (nested : sender.Nested) {s : TimestampedState UserStream}
    (stored : s ∈ sender.queue.sentStates) : s.state.events <+: sender.queue.back.state.events := by
  have split := List.dropLast_append_getLast sender.queue.nonempty
  have order := nested.streams
  rw [← split] at order stored
  rcases History.mem_snoc.mp stored with old | rfl
  · exact (History.pairwise_snoc.mp order).2 s old
  · exact List.prefix_refl _

end SspSender

/-- A queued state, read back to its full log: what rationalization took from its start is put back. -/
def logged (base : List UserEvent) (s : TimestampedState UserStream) : Numbered :=
  (s.num, base ++ s.state.events)

/-- The sender stores streams that have all lost the same acknowledged start. -/
structure Rebased (base pushed : List UserEvent) (queued : List Numbered)
    (sender : SspSender UserStream) : Prop where
  current : base ++ sender.currentState.events = pushed
  queue : sender.queue.sentStates.map (logged base) = queued

/-- What a framed instruction carries: the way from one assigned log to a later one. -/
structure Faithful (assigned : List Numbered) (inst : TransportInstruction) : Prop where
  version : inst.protocolVersion = moshProtocolVersion
  chaff : inst.chaff = []
  logs : ∃ old tail, (inst.oldNum, old) ∈ assigned ∧ (inst.newNum, old ++ tail) ∈ assigned ∧
    inst.diff = UserStream.diffFrom ⟨old ++ tail⟩ ⟨old⟩ ∧ tail.length ≤ isizeMax
  throwaway : inst.throwawayNum ≤ inst.oldNum
  advances : inst.oldNum ≤ inst.newNum

theorem Faithful.extend {assigned : List Numbered} {inst : TransportInstruction}
    (faithful : Faithful assigned inst) (more : List Numbered) : Faithful (assigned ++ more) inst := by
  obtain ⟨version, chaff, ⟨old, tail, oldMember, newMember, diff, short⟩, throwaway, advances⟩ := faithful
  exact ⟨version, chaff, ⟨old, tail, List.mem_append_left _ oldMember, List.mem_append_left _ newMember,
    diff, short⟩, throwaway, advances⟩

namespace Rebased

variable {base pushed : List UserEvent} {assigned queued : List Numbered} {shutdown : Bool}
  {sender : SspSender UserStream}

theorem member (rebased : Rebased base pushed queued sender) {s : TimestampedState UserStream}
    (stored : s ∈ sender.queue.sentStates) : logged base s ∈ queued := by
  rw [← rebased.queue]
  exact List.mem_map_of_mem stored

theorem front (rebased : Rebased base pushed queued sender) :
    queued.head? = some (logged base sender.queue.front) := by
  rw [← rebased.queue, List.head?_map, SentQueue.head?_eq_front]
  rfl

theorem back (rebased : Rebased base pushed queued sender) :
    queued.getLast? = some (logged base sender.queue.back) := by
  rw [← rebased.queue, List.getLast?_map, SentQueue.getLast?_eq_back]
  rfl

theorem nonempty (rebased : Rebased base pushed queued sender) : queued ≠ [] := by
  rw [← rebased.queue]
  exact fun empty => sender.queue.nonempty (List.map_eq_nil_iff.mp empty)

theorem tail (rebased : Rebased base pushed queued sender)
    (chronicle : Chronicle pushed assigned queued shutdown) {s : TimestampedState UserStream}
    (stored : s ∈ sender.queue.sentStates) :
    ∃ tail, sender.currentState.events = s.state.events ++ tail := by
  have known := chronicle.prefixes _ (chronicle.held _ (rebased.member stored))
  rw [← rebased.current] at known
  obtain ⟨tail, split⟩ := (List.prefix_append_right_inj base).mp known
  exact ⟨tail, split.symm⟩

theorem nested (rebased : Rebased base pushed queued sender)
    (chronicle : Chronicle pushed assigned queued shutdown) : sender.Nested := by
  constructor
  · have ordered := chronicle.ordered
    rw [← rebased.queue, List.pairwise_map] at ordered
    exact ordered.imp fun order => (List.prefix_append_right_inj base).mp order.2
  · intro s stored
    obtain ⟨tail, split⟩ := rebased.tail chronicle stored
    exact ⟨tail, split.symm⟩

theorem front_diff (rebased : Rebased base pushed queued sender) {front : Numbered}
    (head : queued.head? = some front) :
    UserStream.diffFrom sender.currentState sender.queue.front.state =
      UserStream.diffFrom ⟨pushed⟩ ⟨front.2⟩ := by
  rw [rebased.front] at head
  rw [← Option.some.inj head, ← rebased.current]
  exact (UserStream.diffFrom_append base _ _).symm

theorem of_states (rebased : Rebased base pushed queued sender) {other : SspSender UserStream}
    (states : other.queue.sentStates = sender.queue.sentStates)
    (current : other.currentState = sender.currentState) : Rebased base pushed queued other :=
  ⟨by rw [current, rebased.current], by rw [states, rebased.queue]⟩

/-- Rationalization moves what the front holds from every stored stream to the common start. -/
theorem prepared (rebased : Rebased base pushed queued sender)
    (chronicle : Chronicle pushed assigned queued shutdown) (now rto : Nat) :
    ∃ base, Rebased base pushed queued (sender.prepared now rto) ∧
      (sender.prepared now rto).currentState.events.length ≤ sender.currentState.events.length := by
  unfold SspSender.prepared SspSender.rationalizeStates
  split
  · exact ⟨base, rebased.of_states rfl rfl, Nat.le_refl _⟩
  · generalize frontEq : (sender.updateAssumedReceiverState now rto).queue.front.state = known
    have front : sender.queue.front.state = known := by
      rw [← frontEq]
      exact congrArg _ (SspSender.front_congr rfl)
    obtain ⟨rest, currentSplit⟩ := rebased.tail chronicle sender.queue.front_mem
    rw [front] at currentSplit
    have reduced : known.events ++ (sender.currentState.subtract known).events = sender.currentState.events :=
      UserStream.subtract_events ⟨rest, currentSplit.symm⟩
    refine ⟨base ++ known.events, ⟨?_, ?_⟩, ?_⟩
    · rw [← rebased.current, ← reduced, ← List.append_assoc]
      rfl
    · rw [← rebased.queue]
      simp only [SentQueue.mapStates, List.map_map]
      refine List.map_congr_left fun s stored => ?_
      have begins : base ++ known.events <+: base ++ s.state.events := by
        rw [← front]
        exact (chronicle.front_le rebased.front (rebased.member stored)).2
      have shorter : known.events ++ (s.state.subtract known).events = s.state.events :=
        UserStream.subtract_events ((List.prefix_append_right_inj base).mp begins)
      simp only [Function.comp_apply, logged]
      rw [show SspSentState.subtract s.state known = s.state.subtract known from rfl, List.append_assoc, shorter]
    · have length := congrArg List.length reduced
      rw [List.length_append] at length
      show (sender.currentState.subtract known).events.length ≤ sender.currentState.events.length
      omega

theorem acknowledge (rebased : Rebased base pushed queued sender) (ack : UInt64) :
    Rebased base pushed (if queued.any fun entry => entry.1 = ack
      then queued.filter fun entry => ack ≤ entry.1 else queued)
      (sender.processAcknowledgmentThrough ack) := by
  refine ⟨rebased.current, ?_⟩
  rw [← rebased.queue, List.any_map, List.filter_map]
  simp only [SspSender.processAcknowledgmentThrough, SentQueue.processAcknowledgmentThrough]
  split
  · rename_i known
    exact (if_pos known).symm
  · rename_i unknown
    exact (if_neg unknown).symm

theorem assignable (rebased : Rebased base pushed queued sender)
    (chronicle : Chronicle pushed assigned queued sender.shutdownInProgress)
    (room : sender.shutdownInProgress = false → sender.queue.back.num < shutdownNum - 1) {now : Nat}
    {inst : TransportInstruction} {states : List (TimestampedState UserStream)}
    (requeued : Requeued sender now inst states) : chronicle.Assignable inst.newNum := by
  have shut : sender.shutdownInProgress = true → inst.newNum = shutdownNum →
      chronicle.Assignable inst.newNum := by
    intro shutting last
    rw [last]
    refine ⟨fun back _ => ?_, fun entry member same => (chronicle.final entry member same).2, fun _ => shutting⟩
    exact UInt64.le_iff_toNat_le.mpr (Nat.le_of_lt_succ back.1.toNat_lt)
  cases requeued with
  | appended num =>
    by_cases shutting : sender.shutdownInProgress = true
    · exact shut shutting (num.trans (if_pos shutting))
    · rw [if_neg shutting] at num
      have below := room (Bool.eq_false_iff.mpr shutting)
      rw [num]
      refine ⟨?_, ?_, ?_⟩
      · intro back last
        rw [rebased.back] at last
        obtain rfl := Option.some.inj last
        simp only [logged, shutdownNum] at below ⊢
        grind
      · intro entry member same
        have bound := chronicle.newest _ rebased.back entry member
        rw [same] at bound
        simp only [logged, shutdownNum] at below bound
        grind
      · intro last
        simp only [shutdownNum] at below last
        grind
  | refreshed num carries settled =>
    rcases settled with ⟨shutting, last⟩ | ⟨-, same⟩
    · exact shut shutting last
    · have held := chronicle.held _ (rebased.member sender.queue.back_mem)
      have full : (logged base sender.queue.back).2 = pushed := by
        rw [← rebased.current, same]
        rfl
      rw [num]
      refine ⟨?_, ?_, ?_⟩
      · intro back last
        rw [rebased.back] at last
        obtain rfl := Option.some.inj last
        exact UInt64.le_refl _
      · intro entry member sameNum
        rw [chronicle.functional entry member _ held sameNum, full]
      · exact fun last => (chronicle.final _ held last).1

theorem requeued (rebased : Rebased base pushed queued sender)
    (chronicle : Chronicle pushed assigned queued shutdown) {now : Nat} {inst : TransportInstruction}
    {states : List (TimestampedState UserStream)} (requeued : Requeued sender now inst states)
    (assignable : chronicle.Assignable inst.newNum) :
    Chronicle pushed (assigned ++ [(inst.newNum, pushed)]) (states.map (logged base)) shutdown ∧
      (states.map (logged base)).head?.map Prod.fst = some sender.queue.front.num := by
  cases requeued with
  | appended num =>
    have logs : (SentQueue.cull (sender.queue.sentStates ++
        [{ timestamp := now, num := inst.newNum, state := sender.currentState }])).map (logged base) =
        SentQueue.cull (queued ++ [(inst.newNum, pushed)]) := by
      rw [SentQueue.cull_map, List.map_append, rebased.queue, ← rebased.current]
      rfl
    rw [logs]
    constructor
    · refine chronicle.assign assignable rebased.nonempty (.inr (SentQueue.cull_sublist _)) ?_
      intro back last
      rw [SentQueue.cull_getLast?, List.getLast?_append] at last
      obtain rfl : (inst.newNum, pushed) = back := by simpa using last
      rfl
    · rw [SentQueue.cull_head?, List.head?_append, rebased.front]
      rfl
  | refreshed num carries settled =>
    rw [sender.queue.refreshBack_map now (logged base) fun _ => rfl, rebased.queue]
    constructor
    · refine chronicle.assign assignable rebased.nonempty (.inl (List.Sublist.refl _)) ?_
      intro back last
      rw [rebased.back] at last
      rw [← Option.some.inj last, num]
      rfl
    · rw [rebased.front]
      rfl

theorem faithful (rebased : Rebased base pushed queued sender)
    (chronicle : Chronicle pushed assigned queued shutdown)
    (short : sender.currentState.events.length ≤ isizeMax) {origin : TimestampedState UserStream}
    {inst : TransportInstruction} (framed : Framed sender origin inst)
    (assignable : chronicle.Assignable inst.newNum) :
    Faithful (assigned ++ [(inst.newNum, pushed)]) inst := by
  obtain ⟨tail, split⟩ := rebased.tail chronicle framed.member
  have stored := rebased.member framed.member
  have full : pushed = base ++ origin.state.events ++ tail := by
    rw [← rebased.current, split, List.append_assoc]
  refine ⟨framed.version, framed.chaff, ⟨base ++ origin.state.events, tail, ?_, ?_, ?_, ?_⟩, ?_, ?_⟩
  · rw [framed.old]
    exact List.mem_append_left _ (chronicle.held _ stored)
  · rw [← full]
    exact List.mem_append_right _ (List.mem_singleton.mpr rfl)
  · rw [framed.diff, List.append_assoc, UserStream.diffFrom_append, ← split]
    rfl
  · rw [split, List.length_append] at short
    omega
  · rw [framed.throwaway, framed.old]
    exact (chronicle.front_le rebased.front stored).1
  · rw [framed.old]
    exact UInt64.le_trans (chronicle.le_back rebased.back stored) (assignable.reaches _ rebased.back)

/-- An instruction that names its own new state as its base is an empty one of the shutdown state. -/
theorem marker (rebased : Rebased base pushed queued sender)
    (chronicle : Chronicle pushed assigned queued sender.shutdownInProgress)
    (room : sender.shutdownInProgress = false → sender.queue.back.num < shutdownNum - 1) {now : Nat}
    {origin : TimestampedState UserStream} {inst : TransportInstruction}
    {states : List (TimestampedState UserStream)} (framed : Framed sender origin inst)
    (requeued : Requeued sender now inst states) (same : inst.oldNum = inst.newNum) :
    sender.shutdownInProgress = true ∧ inst.newNum = shutdownNum ∧ inst.diff = [] ∧
      (sender.queue.front.num = shutdownNum ∨
        100 ≤ (UserStream.diffFrom sender.currentState sender.queue.front.state).length) := by
  have stored := rebased.member framed.member
  have held := chronicle.held _ stored
  have below := chronicle.le_back rebased.back stored
  rw [framed.old] at same
  obtain ⟨tail, split⟩ := rebased.tail chronicle framed.member
  have empty_of_full : (logged base origin).2 = pushed → inst.diff = [] := by
    intro full
    rw [← rebased.current, logged, List.append_cancel_left_eq, split, List.self_eq_append_right] at full
    rw [framed.diff, show sender.currentState = ⟨origin.state.events ++ tail⟩ from UserStream.ext split]
    exact (UserStream.diffFrom_extension_eq_nil_iff origin.state.events tail).mpr full
  have shut : inst.newNum = shutdownNum → sender.shutdownInProgress = true ∧ inst.newNum = shutdownNum ∧
      inst.diff = [] ∧ (sender.queue.front.num = shutdownNum ∨
        100 ≤ (UserStream.diffFrom sender.currentState sender.queue.front.state).length) := by
    intro last
    obtain ⟨shutting, full⟩ := chronicle.final _ held (same.trans last)
    have empty := empty_of_full full
    refine ⟨shutting, last, empty, ?_⟩
    rcases framed.economical with rfl | long
    · exact .inl (same.trans last)
    · exact .inr (long empty)
  cases requeued with
  | appended num =>
    by_cases shutting : sender.shutdownInProgress = true
    · exact shut (num.trans (if_pos shutting))
    · rw [if_neg shutting] at num
      have room := room (Bool.eq_false_iff.mpr shutting)
      rw [show (logged base origin).1 = origin.num from rfl, same, num] at below
      simp only [logged, shutdownNum] at below room
      grind
  | refreshed num carries settled =>
    rcases settled with ⟨-, last⟩ | ⟨-, current⟩
    · exact shut last
    · have back := chronicle.held _ (rebased.member sender.queue.back_mem)
      have logs := chronicle.functional _ held _ back (same.trans num)
      refine absurd (empty_of_full ?_) carries
      rw [logs, ← rebased.current, current]
      rfl

end Rebased

end MoshModel
