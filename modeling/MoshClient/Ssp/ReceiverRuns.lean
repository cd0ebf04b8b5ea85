import MoshClient.Ssp.Receiver
import MoshClient.Library.History
import Mathlib.Data.List.Induction

namespace MoshModel

namespace SspReceiver

variable {S : Type}

/-- The queue is ordered by strictly increasing numbers. -/
def Ascending (receiver : SspReceiver S) : Prop :=
  receiver.received.Pairwise fun earlier later => earlier.num < later.num

theorem new_ascending (initial : S) (now : Nat) : (new initial now).Ascending :=
  List.pairwise_singleton _ _

theorem latest_mem (receiver : SspReceiver S) : receiver.latest ∈ receiver.received :=
  List.getLast_mem receiver.nonempty

theorem latest_of_append {receiver : SspReceiver S} {older : List (TimestampedState S)}
    {added : TimestampedState S} (queue : receiver.received = older ++ [added]) :
    receiver.latest = added := by
  obtain ⟨received, quenchUntil, nonempty⟩ := receiver
  subst queue
  exact List.getLast_append_singleton older

theorem holds_iff (receiver : SspReceiver S) (num : UInt64) :
    receiver.holds num = true ↔ ∃ s ∈ receiver.received, s.num = num := by
  simp [holds]

theorem mem_kept {receiver : SspReceiver S} {throwawayNum : UInt64} {s : TimestampedState S} :
    s ∈ receiver.kept throwawayNum ↔ s ∈ receiver.received ∧ throwawayNum ≤ s.num := by
  simp [kept]

theorem kept_ascending {receiver culled : SspReceiver S} {throwawayNum : UInt64}
    (ascending : receiver.Ascending) (queue : culled.received = receiver.kept throwawayNum) :
    culled.Ascending := by
  rw [Ascending, queue]
  exact ascending.filter _

theorem Ascending.le_latest {receiver : SspReceiver S} (ascending : receiver.Ascending)
    {s : TimestampedState S} (member : s ∈ receiver.received) : s.num ≤ receiver.latest.num := by
  have split := List.dropLast_concat_getLast receiver.nonempty
  rw [← split] at member
  rcases History.mem_snoc.mp member with early | rfl
  · rw [Ascending, ← split, History.pairwise_snoc] at ascending
    exact UInt64.le_of_lt (ascending.2 s early)
  · exact UInt64.le_refl _

theorem Ascending.eq_of_num {receiver : SspReceiver S} (ascending : receiver.Ascending)
    {left right : TimestampedState S} (leftMember : left ∈ receiver.received)
    (rightMember : right ∈ receiver.received) (same : left.num = right.num) : left = right := by
  obtain ⟨i, iBound, rfl⟩ := List.getElem_of_mem leftMember
  obtain ⟨j, jBound, rfl⟩ := List.getElem_of_mem rightMember
  have order := List.pairwise_iff_getElem.mp ascending
  rcases Nat.lt_trichotomy i j with less | rfl | more
  · exact absurd (same ▸ order i j iBound jBound less) (UInt64.lt_irrefl _)
  · rfl
  · exact absurd (same ▸ order j i jBound iBound more) (UInt64.lt_irrefl _)

theorem kept_latest {receiver culled : SspReceiver S} {throwawayNum : UInt64}
    (ascending : receiver.Ascending) (queue : culled.received = receiver.kept throwawayNum) :
    culled.latest = receiver.latest := by
  have member := culled.latest_mem
  rw [queue, mem_kept] at member
  have stays : receiver.latest ∈ culled.received := by
    rw [queue, mem_kept]
    exact ⟨receiver.latest_mem, UInt64.le_trans member.2 (ascending.le_latest member.1)⟩
  refine ascending.eq_of_num member.1 receiver.latest_mem (UInt64.le_antisymm ?_ ?_)
  · exact ascending.le_latest member.1
  · exact (kept_ascending ascending queue).le_latest stays

theorem mem_insertState (base : SspReceiver S) (added : TimestampedState S) (hadDiff : Bool)
    (s : TimestampedState S) :
    s ∈ (base.insertState added hadDiff).2.received ↔ s = added ∨ s ∈ base.received := by
  unfold insertState
  split
  · simp [or_comm]
  · dsimp only
    rw [List.mem_append, List.mem_cons, or_left_comm, ← List.mem_append, List.take_append_drop]

theorem insertState_num (base : SspReceiver S) (added : TimestampedState S) (hadDiff : Bool) :
    insertedNum (.ok (base.insertState added hadDiff).1) = some added.num := by
  unfold insertState
  split <;> rfl

theorem insertState_ascending {base : SspReceiver S} {added : TimestampedState S} (hadDiff : Bool)
    (ascending : base.Ascending) (fresh : ∀ s ∈ base.received, s.num ≠ added.num) :
    (base.insertState added hadDiff).2.Ascending := by
  unfold insertState
  split
  · rename_i newest
    refine History.pairwise_snoc.mpr ⟨ascending, fun s member => ?_⟩
    exact UInt64.lt_of_le_of_lt (ascending.le_latest member) newest
  · simp only [Ascending]
    generalize positionEq : (base.received.findIdx fun s => added.num < s.num) = position
    have order := List.pairwise_iff_getElem.mp ascending
    have above : ∀ s ∈ base.received.drop position, added.num < s.num := by
      intro s member
      obtain ⟨j, bound, rfl⟩ := List.getElem_of_mem member
      rw [List.length_drop] at bound
      rw [List.getElem_drop]
      have inside : position < base.received.length := by omega
      have reaches : added.num < base.received[position].num := by
        subst positionEq
        simpa using List.findIdx_getElem (w := inside)
      rcases Nat.eq_zero_or_pos j with rfl | later
      · exact reaches
      · exact UInt64.lt_trans reaches (order position (position + j) inside (by omega) (by omega))
    have below : ∀ s ∈ base.received.take position, s.num < added.num := by
      intro s member
      obtain ⟨j, bound, rfl⟩ := List.getElem_of_mem member
      rw [List.length_take] at bound
      rw [List.getElem_take]
      have early : j < base.received.findIdx fun s => added.num < s.num := by omega
      have passed := List.not_of_lt_findIdx early
      have other := fresh _ (List.getElem_mem (show j < base.received.length by omega))
      grind
    refine List.pairwise_append.mpr ⟨ascending.sublist (List.take_sublist _ _), ?_, ?_⟩
    · exact List.pairwise_cons.mpr ⟨above, ascending.sublist (List.drop_sublist _ _)⟩
    · intro s early t late
      rcases List.mem_cons.mp late with rfl | late
      · exact below s early
      · exact UInt64.lt_trans (below s early) (above t late)

theorem insertState_latest {base : SspReceiver S} (added : TimestampedState S) (hadDiff : Bool)
    (ascending : base.Ascending) (fresh : ∀ s ∈ base.received, s.num ≠ added.num) :
    ((base.insertState added hadDiff).1 = .latest added.num hadDiff added.state ∧
        base.latest.num < added.num ∧ (base.insertState added hadDiff).2.latest = added) ∨
      ((base.insertState added hadDiff).1 = .outOfOrder added.num hadDiff ∧
        (base.insertState added hadDiff).2.latest = base.latest) := by
  have ordered := insertState_ascending hadDiff ascending fresh
  have members := base.mem_insertState added hadDiff
  by_cases newest : base.latest.num < added.num
  · refine .inl ⟨by rw [insertState, if_pos newest], newest, ?_⟩
    exact latest_of_append (by rw [insertState, if_pos newest])
  · refine .inr ⟨by rw [insertState, if_neg newest], ?_⟩
    have stays := (members base.latest).mpr (.inr base.latest_mem)
    have other := fresh base.latest base.latest_mem
    refine ordered.eq_of_num (latest_mem _) stays (UInt64.le_antisymm ?_ (ordered.le_latest stays))
    rcases (members _).mp (latest_mem (base.insertState added hadDiff).2) with same | member
    · rw [same]
      exact UInt64.not_lt.mp newest
    · exact ascending.le_latest member

theorem holds_eq_false {receiver : SspReceiver S} {num : UInt64} (fresh : receiver.holds num = false)
    (s : TimestampedState S) (member : s ∈ receiver.received) : s.num ≠ num := by
  intro same
  rw [(holds_iff receiver num).mpr ⟨s, member, same⟩] at fresh
  cases fresh

theorem processInstruction_latest (applyString : S → Bytes → Except WireError S)
    {receiver : SspReceiver S} (ascending : receiver.Ascending) (inst : TransportInstruction) (now : Nat) :
    let outcome := receiver.processInstruction applyString inst now
    outcome.2.Ascending ∧
      ((∃ num hadDiff state, outcome.1 = .ok (.latest num hadDiff state) ∧ receiver.latest.num < num ∧
          outcome.2.latest = { timestamp := now, num := num, state := state }) ∨
        ((∀ num hadDiff state, outcome.1 ≠ .ok (.latest num hadDiff state)) ∧
          outcome.2.latest = receiver.latest)) := by
  have cases := processInstruction_cases applyString receiver inst now
  dsimp only
  generalize receiver.processInstruction applyString inst now = outcome at *
  obtain ⟨result, after⟩ := outcome
  have not_latest : insertedNum result = none →
      ∀ num hadDiff state, result ≠ .ok (.latest num hadDiff state) := by
    rintro uninserted num hadDiff state rfl
    cases uninserted
  cases cases with
  | refused unculled uninserted => exact ⟨ascending, .inr ⟨not_latest uninserted, rfl⟩⟩
  | dropped culled uninserted queue =>
    exact ⟨kept_ascending ascending queue, .inr ⟨not_latest uninserted, kept_latest ascending queue⟩⟩
  | @inserted reference state base after culled queue held named applied insertion =>
    subst insertion
    have sorted := kept_ascending ascending queue
    have fresh : ∀ s ∈ base.received, s.num ≠ inst.newNum := by
      intro s member
      rw [queue, mem_kept] at member
      exact holds_eq_false culled.2.1 s member.1
    refine ⟨insertState_ascending _ sorted fresh, ?_⟩
    have same := kept_latest ascending queue
    rcases insertState_latest { timestamp := now, num := inst.newNum, state := state }
      (!inst.diff.isEmpty) sorted fresh with
      ⟨appended, newer, last⟩ | ⟨placed, last⟩
    · rw [same] at newer
      exact .inl ⟨_, _, _, congrArg Except.ok appended, newer, last⟩
    · refine .inr ⟨?_, last.trans same⟩
      intro num hadDiff other found
      rw [placed] at found
      cases found

theorem processThrowawayUntil_outlives {receiver : SspReceiver S} {throwawayNum num : UInt64}
    (held : receiver.holds num = true) (below : throwawayNum ≤ num) :
    (receiver.processThrowawayUntil throwawayNum).1 = true ∧
      (receiver.processThrowawayUntil throwawayNum).2.holds num = true := by
  obtain ⟨s, member, named⟩ := (holds_iff receiver num).mp held
  obtain ⟨taken, queue⟩ | ⟨-, -, beyond⟩ := receiver.processThrowawayUntil_spec throwawayNum
  · refine ⟨taken, (holds_iff _ num).mpr ⟨s, ?_, named⟩⟩
    rw [queue, mem_kept, named]
    exact ⟨member, below⟩
  · have lost := beyond s member
    rw [named] at lost
    exact absurd (UInt64.lt_of_lt_of_le lost below) (UInt64.lt_irrefl _)

/-- With its gate open a receiver that holds the base of an instruction, and not yet its state, puts it in. -/
theorem processInstruction_admitted (applyString : S → Bytes → Except WireError S) {receiver : SspReceiver S}
    {inst : TransportInstruction} {now : Nat} (version : inst.protocolVersion = moshProtocolVersion)
    (fresh : receiver.holds inst.newNum = false) (held : receiver.holds inst.oldNum = true)
    (throwaway : inst.throwawayNum ≤ inst.oldNum) (admits : receiver.Admits inst now)
    (applies : ∀ s ∈ receiver.received, s.num = inst.oldNum → ∃ state,
      (if inst.diff = [] then .ok s.state else applyString s.state inst.diff) = .ok state) :
    insertedNum (receiver.processInstruction applyString inst now).1 = some inst.newNum := by
  obtain ⟨taken, outlives⟩ := processThrowawayUntil_outlives held throwaway
  obtain ⟨-, queue⟩ | ⟨refused, -⟩ := receiver.processThrowawayUntil_spec inst.throwawayNum
  · have quench := receiver.processThrowawayUntil_quenchUntil inst.throwawayNum
    unfold processInstruction
    rw [if_neg (not_not.mpr version), fresh, held]
    generalize receiver.processThrowawayUntil inst.throwawayNum = thrown at taken outlives queue quench
    obtain ⟨kept, culled⟩ := thrown
    dsimp only at taken outlives queue quench
    subst taken
    obtain ⟨s, member, num⟩ := (holds_iff culled inst.oldNum).mp outlives
    cases found : culled.received.find? fun s => s.num = inst.oldNum with
    | none => exact absurd num (by simpa using List.find?_eq_none.mp found s member)
    | some reference =>
      have inside := List.mem_of_find?_eq_some found
      rw [queue, mem_kept] at inside
      obtain ⟨state, applied⟩ := applies reference inside.1 (by simpa using List.find?_some found)
      have same : (if (!inst.diff.isEmpty) = true then applyString reference.state inst.diff
          else .ok reference.state) = (.ok state : Except WireError S) := by
        rw [← applied]
        cases inst.diff <;> rfl
      have entrance : ¬(receivedQueueCap < culled.received.length ∧ now < culled.quenchUntil) := by
        rw [queue, quench]
        unfold Admits at admits
        omega
      simp only [found, Bool.not_true, Bool.false_eq_true, if_false, if_neg entrance, same]
      exact insertState_num _ _ _
  · rw [refused] at taken
    cases taken

end SspReceiver

structure TimedInstruction where
  inst : TransportInstruction
  now : Nat
deriving DecidableEq

inductive ReceiverEvent where
  | culled (throwawayNum : UInt64)
  | inserted (num : UInt64)
deriving DecidableEq

def ReceiverEvent.insertion : ReceiverEvent → Option UInt64
  | .inserted num => some num
  | .culled _ => none

namespace SspReceiver

variable {S : Type}

instance (receiver : SspReceiver S) (inst : TransportInstruction) : Decidable (receiver.CulledBy inst) :=
  inferInstanceAs (Decidable (_ ∧ _))

def events (applyString : S → Bytes → Except WireError S) (receiver : SspReceiver S)
    (arrival : TimedInstruction) : List ReceiverEvent :=
  (if receiver.CulledBy arrival.inst then [.culled arrival.inst.throwawayNum] else []) ++
    ((insertedNum (receiver.processInstruction applyString arrival.inst arrival.now).1).map
      .inserted).toList

def processAll (applyString : S → Bytes → Except WireError S) (receiver : SspReceiver S)
    (arrivals : List TimedInstruction) : SspReceiver S × List ReceiverEvent :=
  arrivals.foldl (fun run arrival =>
    ((run.1.processInstruction applyString arrival.inst arrival.now).2,
      run.2 ++ run.1.events applyString arrival)) (receiver, [])

def insertions (events : List ReceiverEvent) : List UInt64 := events.filterMap ReceiverEvent.insertion

/-- How the history of a queue bounds what it holds: a number put in is still held or lies below
    everything held, and so does every throwaway number taken. -/
structure Idempotent (received : List (TimestampedState S)) (events : List ReceiverEvent) : Prop where
  accounted : ∀ s ∈ received, s.num ∈ 0 :: insertions events
  nodup : (0 :: insertions events).Nodup
  gone : ∀ num ∈ 0 :: insertions events, (∃ s ∈ received, s.num = num) ∨ ∀ s ∈ received, num < s.num
  floor : ∀ throwawayNum, .culled throwawayNum ∈ events → ∀ s ∈ received, throwawayNum ≤ s.num
  guarded : events.Pairwise fun earlier later => ∀ throwawayNum num,
    earlier = .culled throwawayNum → later = .inserted num → throwawayNum ≤ num

theorem Idempotent.start (initial : S) (now : Nat) : Idempotent (new initial now).received [] :=
  ⟨by simp [new, insertions], by simp [insertions], by simp [new, insertions], by simp, List.Pairwise.nil⟩

theorem Idempotent.cull {receiver : SspReceiver S} {events : List ReceiverEvent}
    (idempotent : Idempotent receiver.received events) (throwawayNum : UInt64) :
    Idempotent (receiver.kept throwawayNum) (events ++ [.culled throwawayNum]) := by
  have same : insertions (events ++ [.culled throwawayNum]) = insertions events := by
    simp [insertions, ReceiverEvent.insertion]
  constructor
  · intro s member
    rw [same]
    exact idempotent.accounted s (mem_kept.mp member).1
  · rw [same]
    exact idempotent.nodup
  · intro num member
    rw [same] at member
    rcases idempotent.gone num member with ⟨s, held, rfl⟩ | below
    · by_cases stays : throwawayNum ≤ s.num
      · exact .inl ⟨s, mem_kept.mpr ⟨held, stays⟩, rfl⟩
      · refine .inr fun t member => UInt64.lt_of_lt_of_le (UInt64.not_le.mp stays) (mem_kept.mp member).2
    · exact .inr fun t member => below t (mem_kept.mp member).1
  · intro other member s held
    rw [mem_kept] at held
    rcases History.mem_snoc.mp member with member | same
    · exact idempotent.floor other member s held.1
    · cases same
      exact held.2
  · refine History.pairwise_snoc.mpr ⟨idempotent.guarded, ?_⟩
    intro earlier _ other num _ inserted
    cases inserted

theorem Idempotent.insert {base after : SspReceiver S} {events : List ReceiverEvent}
    (idempotent : Idempotent base.received events) {reference added : TimestampedState S}
    (held : reference ∈ base.received) (older : reference.num ≤ added.num)
    (fresh : ∀ s ∈ base.received, s.num ≠ added.num)
    (members : ∀ s, s ∈ after.received ↔ s = added ∨ s ∈ base.received) :
    Idempotent after.received (events ++ [.inserted added.num]) := by
  have extended : (0 : UInt64) :: insertions (events ++ [.inserted added.num]) =
      (0 :: insertions events) ++ [added.num] := by
    simp [insertions, ReceiverEvent.insertion]
  have unseen : added.num ∉ 0 :: insertions events := by
    intro seen
    rcases idempotent.gone added.num seen with ⟨s, member, same⟩ | below
    · exact fresh s member same
    · exact absurd (UInt64.lt_of_lt_of_le (below reference held) older) (UInt64.lt_irrefl _)
  constructor
  · intro s member
    rw [extended]
    rcases (members s).mp member with rfl | member
    · simp
    · exact List.mem_append_left _ (idempotent.accounted s member)
  · rw [extended]
    exact List.nodup_append.mpr ⟨idempotent.nodup, List.pairwise_singleton _ _, fun num seen other new =>
      fun same => unseen (by rw [← List.mem_singleton.mp new, ← same]; exact seen)⟩
  · intro num member
    rw [extended] at member
    rcases History.mem_snoc.mp member with member | rfl
    · rcases idempotent.gone num member with ⟨s, stays, same⟩ | below
      · exact .inl ⟨s, (members s).mpr (.inr stays), same⟩
      · refine .inr fun t isHeld => ?_
        rcases (members t).mp isHeld with rfl | isHeld
        · exact UInt64.lt_of_lt_of_le (below reference held) older
        · exact below t isHeld
    · exact .inl ⟨added, (members added).mpr (.inl rfl), rfl⟩
  · intro throwawayNum member s isHeld
    have past : .culled throwawayNum ∈ events := by simpa using member
    rcases (members s).mp isHeld with rfl | isHeld
    · exact UInt64.le_trans (idempotent.floor _ past reference held) older
    · exact idempotent.floor _ past s isHeld
  · refine History.pairwise_snoc.mpr ⟨idempotent.guarded, ?_⟩
    intro earlier member throwawayNum num culled inserted
    cases inserted
    subst culled
    exact UInt64.le_trans (idempotent.floor _ member reference held) older

theorem Idempotent.process {applyString : S → Bytes → Except WireError S} {receiver : SspReceiver S}
    {events : List ReceiverEvent} (idempotent : Idempotent receiver.received events)
    (arrival : TimedInstruction) (ordered : arrival.inst.oldNum ≤ arrival.inst.newNum) :
    Idempotent (receiver.processInstruction applyString arrival.inst arrival.now).2.received
      (events ++ receiver.events applyString arrival) := by
  have cases := processInstruction_cases applyString receiver arrival.inst arrival.now
  unfold SspReceiver.events
  generalize receiver.processInstruction applyString arrival.inst arrival.now = outcome at *
  obtain ⟨result, after⟩ := outcome
  cases cases with
  | refused unculled uninserted => simpa [unculled, uninserted] using idempotent
  | dropped culled uninserted queue =>
    rw [if_pos culled, uninserted]
    dsimp only
    rw [queue]
    simpa using idempotent.cull arrival.inst.throwawayNum
  | @inserted reference state base after culled queue held named applied insertion =>
    subst insertion
    have kept := idempotent.cull arrival.inst.throwawayNum
    rw [← queue] at kept
    have fresh : ∀ s ∈ base.received, s.num ≠ arrival.inst.newNum := by
      intro s member
      rw [queue, mem_kept] at member
      exact holds_eq_false culled.2.1 s member.1
    rw [if_pos culled, insertState_num]
    have done := kept.insert held (named ▸ ordered) fresh (base.mem_insertState
      { timestamp := arrival.now, num := arrival.inst.newNum, state := state } (!arrival.inst.diff.isEmpty))
    simpa using done

theorem processAll_append (applyString : S → Bytes → Except WireError S) (receiver : SspReceiver S)
    (arrivals : List TimedInstruction) (arrival : TimedInstruction) :
    processAll applyString receiver (arrivals ++ [arrival]) =
      (((processAll applyString receiver arrivals).1.processInstruction applyString arrival.inst
          arrival.now).2,
        (processAll applyString receiver arrivals).2 ++
          (processAll applyString receiver arrivals).1.events applyString arrival) := by
  simp [processAll, List.foldl_append]

theorem processAll_ascending (applyString : S → Bytes → Except WireError S) (initial : S) (start : Nat)
    (arrivals : List TimedInstruction) :
    (processAll applyString (new initial start) arrivals).1.Ascending := by
  induction arrivals using List.reverseRecOn with
  | nil => exact new_ascending initial start
  | append_singleton arrivals arrival ih =>
    rw [processAll_append]
    exact (processInstruction_latest applyString ih arrival.inst arrival.now).1

/-- No replay, order or throwaway makes a state number enter the queue twice, nor enter it below a
    throwaway number that has culled it. -/
theorem at_most_once (applyString : S → Bytes → Except WireError S) (initial : S) (start : Nat)
    (arrivals : List TimedInstruction)
    (ordered : ∀ arrival ∈ arrivals, arrival.inst.oldNum ≤ arrival.inst.newNum) :
    let run := processAll applyString (new initial start) arrivals
    (∀ s ∈ run.1.received, s.num ∈ 0 :: insertions run.2) ∧ (0 :: insertions run.2).Nodup ∧
      run.2.Pairwise fun earlier later => ∀ throwawayNum num,
        earlier = .culled throwawayNum → later = .inserted num → throwawayNum ≤ num := by
  have idempotent : Idempotent (processAll applyString (new initial start) arrivals).1.received
      (processAll applyString (new initial start) arrivals).2 := by
    induction arrivals using List.reverseRecOn with
    | nil => exact Idempotent.start initial start
    | append_singleton arrivals arrival ih =>
      rw [processAll_append]
      exact (ih fun other member => ordered other (List.mem_append_left _ member)).process arrival
        (ordered arrival (by simp))
  exact ⟨idempotent.accounted, idempotent.nodup, idempotent.guarded⟩

/-- A skip ahead, an insert in between, a replay, a cull, and two replays from below it. -/
def replayedArrivals : List TimedInstruction :=
  let typed (old new throwaway : UInt64) : TimedInstruction :=
    { inst := { protocolVersion := 2, oldNum := old, newNum := new, ackNum := 0, throwawayNum := throwaway,
                diff := [], chaff := [] }
      now := 10 }
  [typed 0 3 0, typed 0 1 0, typed 0 3 0, typed 3 5 3, typed 0 1 0, typed 3 3 0]

theorem at_most_once_replayed :
    insertions (processAll UserStream.applyString (new UserStream.new 0) replayedArrivals).2 = [3, 1, 5] ∧
      (0 :: insertions (processAll UserStream.applyString (new UserStream.new 0)
        replayedArrivals).2).Nodup :=
  ⟨by decide +kernel, (at_most_once UserStream.applyString UserStream.new 0 replayedArrivals (by decide)).2.1⟩

end SspReceiver

end MoshModel
