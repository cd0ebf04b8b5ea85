import MoshClient.Ssp.ReceiverRuns
import MoshClient.Library.Spacing

namespace MoshModel

open Spacing

namespace SspReceiver

variable {S : Type}

/-- The instruction is admitted though the queue is over its cap after the throwaway. -/
def overAdmits (applyString : S → Bytes → Except WireError S) (receiver : SspReceiver S)
    (arrival : TimedInstruction) : Bool :=
  (insertedNum (receiver.processInstruction applyString arrival.inst arrival.now).1).isSome ∧
    receivedQueueCap < (receiver.kept arrival.inst.throwawayNum).length

/-- A run of instructions, with the times of the admissions over the cap. -/
def admitAll (applyString : S → Bytes → Except WireError S) (receiver : SspReceiver S)
    (arrivals : List TimedInstruction) : SspReceiver S × List Nat :=
  arrivals.foldl (fun run arrival =>
    ((run.1.processInstruction applyString arrival.inst arrival.now).2,
      run.2 ++ if run.1.overAdmits applyString arrival then [arrival.now] else [])) (receiver, [])

theorem admitAll_append (applyString : S → Bytes → Except WireError S) (receiver : SspReceiver S)
    (arrivals : List TimedInstruction) (arrival : TimedInstruction) :
    admitAll applyString receiver (arrivals ++ [arrival]) =
      (((admitAll applyString receiver arrivals).1.processInstruction applyString arrival.inst arrival.now).2,
        (admitAll applyString receiver arrivals).2 ++
          if (admitAll applyString receiver arrivals).1.overAdmits applyString arrival then [arrival.now]
          else []) := by
  unfold admitAll
  rw [List.foldl_append]
  rfl

theorem insertState_length (base : SspReceiver S) (added : TimestampedState S) (hadDiff : Bool) :
    (base.insertState added hadDiff).2.received.length = base.received.length + 1 := by
  unfold insertState
  split
  · simp
  · simp only [List.length_append, List.length_cons, List.length_take, List.length_drop]
    omega

theorem insertState_quenchUntil (base : SspReceiver S) (added : TimestampedState S) (hadDiff : Bool) :
    (base.insertState added hadDiff).2.quenchUntil = base.quenchUntil := by
  unfold insertState
  split <;> rfl

theorem kept_length_le (receiver : SspReceiver S) (throwawayNum : UInt64) :
    (receiver.kept throwawayNum).length ≤ receiver.received.length := List.length_filter_le _ _

/-- The gate: each admission over the cap has armed the quench, and made the queue one longer. -/
structure Gated (receiver : SspReceiver S) (times : List Nat) : Prop where
  spaced : Spaced quenchWindowMs times
  armed : ∀ time ∈ times, time + quenchWindowMs ≤ receiver.quenchUntil
  length : receiver.received.length ≤ receivedQueueCap + 1 + times.length

theorem Gated.rearmed {receiver : SspReceiver S} {times : List Nat} (gated : receiver.Gated times)
    (inst : TransportInstruction) {now : Nat} (past : ∀ time ∈ times, time ≤ now) :
    ∀ time ∈ times, time + quenchWindowMs ≤ receiver.rearmed inst now := by
  intro time member
  unfold SspReceiver.rearmed
  split
  · exact Nat.add_le_add_right (past time member) _
  · exact gated.armed time member

/-- A state put in: over the cap it finds the gate open, arms it and counts; below it it neither arms nor counts. -/
theorem Gated.insert {receiver base after : SspReceiver S} {times : List Nat} (gated : receiver.Gated times)
    {arrival : TimedInstruction} (past : ∀ time ∈ times, time ≤ arrival.now)
    (admits : receiver.Admits arrival.inst arrival.now)
    (queue : base.received = receiver.kept arrival.inst.throwawayNum)
    (quench : base.quenchUntil = receiver.rearmed arrival.inst arrival.now)
    (longer : after.received.length = base.received.length + 1) (kept : after.quenchUntil = base.quenchUntil) :
    after.Gated (times ++
      if receivedQueueCap < (receiver.kept arrival.inst.throwawayNum).length then [arrival.now] else []) := by
  have fewer := receiver.kept_length_le arrival.inst.throwawayNum
  have rearmed := gated.rearmed arrival.inst past
  have length := gated.length
  rw [queue] at longer
  rw [quench] at kept
  by_cases beyond : receivedQueueCap < (receiver.kept arrival.inst.throwawayNum).length
  · have open_gate : receiver.quenchUntil ≤ arrival.now := by
      unfold Admits at admits
      omega
    rw [if_pos beyond]
    refine ⟨History.pairwise_snoc.mpr ⟨gated.spaced, ?_⟩, ?_, ?_⟩
    · exact fun time member => Nat.le_trans (gated.armed time member) open_gate
    · intro time member
      rw [kept]
      rcases History.mem_snoc.mp member with old | rfl
      · exact rearmed time old
      · rw [SspReceiver.rearmed, if_pos beyond]
    · rw [longer, List.length_append, List.length_singleton]
      omega
  · rw [if_neg beyond, List.append_nil]
    refine ⟨gated.spaced, fun time member => ?_, ?_⟩
    · rw [kept]
      exact rearmed time member
    · rw [longer]
      omega

theorem Gated.process {applyString : S → Bytes → Except WireError S} {receiver : SspReceiver S}
    {times : List Nat} (gated : receiver.Gated times) (arrival : TimedInstruction)
    (past : ∀ time ∈ times, time ≤ arrival.now) :
    (receiver.processInstruction applyString arrival.inst arrival.now).2.Gated
      (times ++ if receiver.overAdmits applyString arrival then [arrival.now] else []) := by
  have handled := receiver.processInstruction_handled applyString arrival.inst arrival.now
  have fewer := receiver.kept_length_le arrival.inst.throwawayNum
  have rearmed := gated.rearmed arrival.inst past
  unfold overAdmits
  generalize receiver.processInstruction applyString arrival.inst arrival.now = outcome at *
  obtain ⟨result, after⟩ := outcome
  -- what puts no state in leaves the times, and need only keep the quench and the length
  have stays : insertedNum result = none → (∀ time ∈ times, time + quenchWindowMs ≤ after.quenchUntil) →
      after.received.length ≤ receiver.received.length → after.Gated (times ++
        if decide ((insertedNum result).isSome ∧
          receivedQueueCap < (receiver.kept arrival.inst.throwawayNum).length) then [arrival.now] else []) := by
    intro uninserted armed short
    rw [uninserted]
    simp only [Option.isSome_none, Bool.false_eq_true, false_and, decide_false, if_false, List.append_nil]
    exact ⟨gated.spaced, armed, Nat.le_trans short gated.length⟩
  cases handled with
  | version other => exact stays rfl gated.armed (Nat.le_refl _)
  | duplicate known => exact stays rfl gated.armed (Nat.le_refl _)
  | unreferenced missing => exact stays rfl gated.armed (Nat.le_refl _)
  | culledAway culled queue quench =>
    exact stays rfl (fun time member => by rw [quench]; exact gated.armed time member) (by rw [queue]; exact fewer)
  | quenched culled queue quench =>
    exact stays rfl (fun time member => by rw [quench]; exact gated.armed time member) (by rw [queue]; exact fewer)
  | badDiff culled admits queue quench =>
    exact stays rfl (fun time member => by rw [quench]; exact rearmed time member) (by rw [queue]; exact fewer)
  | @inserted reference state base after culled admits queue quench held named applied insertion =>
    subst insertion
    rw [insertState_num]
    simp only [Option.isSome_some, true_and, decide_eq_true_eq]
    exact gated.insert past admits queue quench (base.insertState_length _ _) (base.insertState_quenchUntil _ _)

theorem admitAll_times (applyString : S → Bytes → Except WireError S) (receiver : SspReceiver S)
    (arrivals : List TimedInstruction) :
    ∀ time ∈ (admitAll applyString receiver arrivals).2, ∃ arrival ∈ arrivals, arrival.now = time := by
  induction arrivals using List.reverseRecOn with
  | nil => simp [admitAll]
  | append_singleton arrivals arrival ih =>
    rw [admitAll_append]
    intro time member
    rcases List.mem_append.mp member with old | new
    · obtain ⟨earlier, given, same⟩ := ih time old
      exact ⟨earlier, List.mem_append_left _ given, same⟩
    · split at new
      · exact ⟨arrival, by simp, (List.mem_singleton.mp new).symm⟩
      · cases new

theorem admitAll_gated (applyString : S → Bytes → Except WireError S) (initial : S) (start : Nat)
    (arrivals : List TimedInstruction)
    (ordered : arrivals.Pairwise fun earlier later => earlier.now ≤ later.now) :
    (admitAll applyString (new initial start) arrivals).1.Gated
      (admitAll applyString (new initial start) arrivals).2 := by
  induction arrivals using List.reverseRecOn with
  | nil => exact ⟨List.Pairwise.nil, by simp [admitAll], by simp [admitAll, new]⟩
  | append_singleton arrivals arrival ih =>
    obtain ⟨before, last⟩ := History.pairwise_snoc.mp ordered
    rw [admitAll_append]
    apply (ih before).process arrival
    intro time member
    obtain ⟨earlier, given, rfl⟩ := admitAll_times applyString _ arrivals time member
    exact last earlier given

/-- Admissions over the cap are a window apart, whatever happens between them, so that the queue grows
    past it by one state a window. -/
theorem quench_bounds_growth (applyString : S → Bytes → Except WireError S) (initial : S) (start : Nat)
    (arrivals : List TimedInstruction)
    (ordered : arrivals.Pairwise fun earlier later => earlier.now ≤ later.now) :
    let run := admitAll applyString (new initial start) arrivals
    (run.2.Pairwise fun earlier later => earlier + quenchWindowMs ≤ later) ∧
      ∀ now, (∀ arrival ∈ arrivals, arrival.now ≤ now) →
        match run.2 with
        | [] => run.1.received.length ≤ 1025
        | first :: _ => run.1.received.length ≤ 1026 + (now - first) / quenchWindowMs := by
  have gated := admitAll_gated applyString initial start arrivals ordered
  have given := admitAll_times applyString (new initial start) arrivals
  dsimp only
  generalize admitAll applyString (new initial start) arrivals = run at *
  refine ⟨gated.spaced, fun now past => ?_⟩
  have within : ∀ time ∈ run.2, time ≤ now := by
    intro time member
    obtain ⟨arrival, arrived, rfl⟩ := given time member
    exact past arrival arrived
  have length := gated.length
  have spaced := gated.spaced
  simp only [receivedQueueCap] at length
  cases times : run.2 with
  | nil =>
    rw [times] at length
    exact length
  | cons first rest =>
    rw [times] at length spaced within
    have few := Spacing.length_le (by decide) spaced within
    rw [List.length_cons] at length
    dsimp only
    omega

def floodArrival (num now : Nat) : TimedInstruction :=
  { inst := { protocolVersion := 2, oldNum := 0, newNum := .ofNat num, ackNum := 0, throwawayNum := 0, diff := [],
              chaff := [] }
    now := now }

@[simp] theorem floodArrival_now (num now : Nat) : (floodArrival num now).now = now := rfl

@[simp] theorem floodArrival_throwaway (num now : Nat) : (floodArrival num now).inst.throwawayNum = 0 := rfl

/-- What a flood of states on top of the first leaves of the queue, the last of them numbered `top`. -/
structure Flooded (receiver : SspReceiver S) (count top quench : Nat) : Prop where
  length : receiver.received.length = count + 1
  first : receiver.holds 0 = true
  most : ∀ s ∈ receiver.received, s.num.toNat ≤ top
  quench : receiver.quenchUntil = quench

section Flood

variable {receiver : SspReceiver S} {count top quench num now : Nat} (applyString : S → Bytes → Except WireError S)

omit applyString in
theorem kept_zero (receiver : SspReceiver S) : receiver.kept 0 = receiver.received :=
  List.filter_eq_self.mpr fun _ _ => decide_eq_true UInt64.zero_le

omit applyString in
theorem Flooded.fresh (flooded : receiver.Flooded count top quench) (newer : top < num) (small : num < 2 ^ 64) :
    receiver.holds (.ofNat num) = false := by
  rw [Bool.eq_false_iff]
  intro held
  obtain ⟨s, member, same⟩ := (holds_iff receiver _).mp held
  have below := flooded.most s member
  rw [same, UInt64.toNat_ofNat_of_lt' small] at below
  exact Nat.not_le_of_lt newer below

omit applyString in
theorem Flooded.admits_iff (flooded : receiver.Flooded count top quench) (num now : Nat) :
    receiver.Admits (floodArrival num now).inst now ↔ count < receivedQueueCap ∨ quench ≤ now := by
  rw [Admits, floodArrival_throwaway, kept_zero, flooded.length, flooded.quench]
  omega

theorem Flooded.admit (flooded : receiver.Flooded count top quench) (newer : top < num) (small : num < 2 ^ 64)
    (entrance : count < receivedQueueCap ∨ quench ≤ now) :
    let after := (receiver.processInstruction applyString (floodArrival num now).inst now).2
    after.Flooded (count + 1) num (if receivedQueueCap ≤ count then now + quenchWindowMs else quench) ∧
      receiver.overAdmits applyString (floodArrival num now) = decide (receivedQueueCap ≤ count) := by
  have fresh := flooded.fresh newer small
  have length := flooded.length
  have admits := (flooded.admits_iff num now).mpr entrance
  have admitted : insertedNum (receiver.processInstruction applyString (floodArrival num now).inst now).1 =
      some (.ofNat num) :=
    processInstruction_admitted applyString rfl fresh flooded.first UInt64.zero_le admits fun s _ _ => ⟨s.state, rfl⟩
  have charged : receiver.overAdmits applyString (floodArrival num now) = decide (receivedQueueCap ≤ count) := by
    unfold overAdmits
    rw [floodArrival_now, admitted]
    simp only [Option.isSome_some, true_and, floodArrival_throwaway, kept_zero, length, decide_eq_decide]
    omega
  refine ⟨?_, charged⟩
  have handled := receiver.processInstruction_handled applyString (floodArrival num now).inst now
  generalize receiver.processInstruction applyString (floodArrival num now).inst now = outcome at *
  obtain ⟨result, after⟩ := outcome
  cases handled with
  | version _ | duplicate _ | unreferenced _ | culledAway _ _ _ | quenched _ _ _ | badDiff _ _ _ _ => cases admitted
  | @inserted reference state base after culled admits queue quench held named applied insertion =>
    subst insertion
    rw [floodArrival_throwaway, kept_zero] at queue
    have first := (holds_iff receiver 0).mp flooded.first
    obtain ⟨s, member, zero⟩ := first
    refine ⟨?_, ?_, ?_, ?_⟩
    · rw [insertState_length, queue, length]
    · rw [holds_iff]
      exact ⟨s, (mem_insertState _ _ _ _).mpr (.inr (queue ▸ member)), zero⟩
    · intro s member
      rcases (mem_insertState _ _ _ _).mp member with rfl | old
      · exact Nat.le_of_eq (UInt64.toNat_ofNat_of_lt' small)
      · rw [queue] at old
        exact Nat.le_of_lt (Nat.lt_of_le_of_lt (flooded.most s old) newer)
    · rw [insertState_quenchUntil, quench, rearmed, floodArrival_throwaway, kept_zero, length, flooded.quench]
      simp only [Nat.lt_succ_iff]

theorem Flooded.refuse (num : Nat) (flooded : receiver.Flooded count top quench) (full : receivedQueueCap ≤ count)
    (closed : now < quench) :
    (receiver.processInstruction applyString (floodArrival num now).inst now).2.Flooded count top quench ∧
      receiver.overAdmits applyString (floodArrival num now) = false := by
  have shut : ¬receiver.Admits (floodArrival num now).inst now := by
    rw [flooded.admits_iff]
    omega
  have handled := receiver.processInstruction_handled applyString (floodArrival num now).inst now
  unfold overAdmits
  rw [floodArrival_now]
  generalize receiver.processInstruction applyString (floodArrival num now).inst now = outcome at *
  obtain ⟨result, after⟩ := outcome
  cases handled with
  | version _ | duplicate _ | unreferenced _ => exact ⟨flooded, rfl⟩
  | badDiff culled admits queue quench => exact absurd admits shut
  | inserted culled admits queue quench held named applied insertion => exact absurd admits shut
  | culledAway culled queue quench | quenched culled queue quench =>
    rw [floodArrival_throwaway, kept_zero] at queue
    refine ⟨⟨?_, ?_, ?_, quench.trans flooded.quench⟩, rfl⟩
    · rw [queue, flooded.length]
    · rw [holds, queue]
      exact flooded.first
    · rw [queue]
      exact flooded.most

end Flood

def flood (count : Nat) : List TimedInstruction := (List.range count).map fun i => floodArrival (i + 1) i

theorem flood_succ (count : Nat) : flood (count + 1) = flood count ++ [floodArrival (count + 1) count] := by
  unfold flood
  rw [List.range_succ, List.map_append, List.map_singleton]

theorem flood_now {count : Nat} : ∀ arrival ∈ flood count, arrival.now < count := by
  intro arrival member
  obtain ⟨i, below, rfl⟩ := List.mem_map.mp member
  exact List.mem_range.mp below

theorem flood_ordered (count : Nat) : (flood count).Pairwise fun earlier later => earlier.now ≤ later.now :=
  List.pairwise_map.mpr (List.pairwise_lt_range.imp Nat.le_of_lt)

theorem admitAll_flood (applyString : S → Bytes → Except WireError S) (initial : S) (start : Nat) {count : Nat}
    (below : count ≤ receivedQueueCap) :
    (admitAll applyString (new initial start) (flood count)).1.Flooded count count 0 ∧
      (admitAll applyString (new initial start) (flood count)).2 = [] := by
  induction count with
  | zero =>
    refine ⟨⟨rfl, rfl, ?_, rfl⟩, rfl⟩
    intro s member
    rw [List.mem_singleton.mp member]
    exact Nat.le_refl 0
  | succ count ih =>
    obtain ⟨flooded, silent⟩ := ih (Nat.le_of_succ_le below)
    have small : count + 1 < 2 ^ 64 := Nat.lt_of_le_of_lt below (by decide)
    obtain ⟨after, uncounted⟩ := flooded.admit applyString (Nat.lt_succ_self count) small (.inl below)
    have under : ¬receivedQueueCap ≤ count := Nat.not_le_of_lt below
    rw [if_neg under] at after
    rw [decide_eq_false under] at uncounted
    rw [flood_succ, admitAll_append, uncounted, silent]
    exact ⟨after, rfl⟩

/-- A full queue and three more: one past the cap, one within its window, one as the window ends. -/
def floodArrivals : List TimedInstruction :=
  flood receivedQueueCap ++ [floodArrival 1025 1024] ++ [floodArrival 1026 2000] ++ [floodArrival 1027 16024]

theorem floodArrivals_admitted :
    (admitAll UserStream.applyString (new UserStream.new 0) floodArrivals).2 = [1024, 16024] ∧
      (admitAll UserStream.applyString (new UserStream.new 0) floodArrivals).1.received.length = 1027 := by
  obtain ⟨full, silent⟩ := admitAll_flood UserStream.applyString UserStream.new 0 (Nat.le_refl receivedQueueCap)
  unfold floodArrivals
  rw [admitAll_append, admitAll_append, admitAll_append]
  generalize admitAll UserStream.applyString (new UserStream.new 0) (flood receivedQueueCap) = run at *
  obtain ⟨receiver, times⟩ := run
  dsimp only at full silent ⊢
  obtain ⟨armed, counted⟩ := full.admit UserStream.applyString (by decide : receivedQueueCap < 1025) (by decide)
    (.inr (Nat.zero_le 1024))
  obtain ⟨kept, uncounted⟩ := armed.refuse UserStream.applyString 1026 (by decide) (by decide : 2000 < 1024 + quenchWindowMs)
  obtain ⟨last, again⟩ := kept.admit UserStream.applyString (by decide : 1025 < 1027) (by decide)
    (.inr (by decide : 1024 + quenchWindowMs ≤ 16024))
  simp only [floodArrival_now, counted, uncounted, again, silent]
  exact ⟨rfl, last.length⟩

theorem floodArrivals_ordered : (floodArrivals.Pairwise fun earlier later => earlier.now ≤ later.now) ∧
    ∀ arrival ∈ floodArrivals, arrival.now ≤ 16024 := by
  have early : ∀ arrival ∈ flood receivedQueueCap, arrival.now < 1024 := flood_now
  simp only [floodArrivals, History.pairwise_snoc, History.mem_snoc, floodArrival_now]
  refine ⟨⟨⟨⟨flood_ordered receivedQueueCap, ?_⟩, ?_⟩, ?_⟩, ?_⟩
  · exact fun arrival member => Nat.le_of_lt (early arrival member)
  · rintro arrival (member | rfl)
    · have past := early arrival member
      omega
    · decide
  · rintro arrival ((member | rfl) | rfl)
    · have past := early arrival member
      omega
    · decide
    · decide
  · rintro arrival (((member | rfl) | rfl) | rfl)
    · have past := early arrival member
      omega
    · decide
    · decide
    · decide

theorem quench_bounds_growth_flooded :
    let run := admitAll UserStream.applyString (new UserStream.new 0) floodArrivals
    run.2 = [1024, 16024] ∧ (run.2.Pairwise fun earlier later => earlier + quenchWindowMs ≤ later) ∧
      run.1.received.length = 1027 ∧ run.1.received.length ≤ 1026 + (16024 - 1024) / quenchWindowMs := by
  have admitted := floodArrivals_admitted
  have bounded := quench_bounds_growth UserStream.applyString UserStream.new 0 floodArrivals floodArrivals_ordered.1
  dsimp only at bounded ⊢
  generalize admitAll UserStream.applyString (new UserStream.new 0) floodArrivals = run at *
  obtain ⟨times, length⟩ := admitted
  obtain ⟨spaced, grown⟩ := bounded
  have most := grown 16024 floodArrivals_ordered.2
  rw [times] at most
  exact ⟨times, spaced, length, most⟩

end SspReceiver

end MoshModel
