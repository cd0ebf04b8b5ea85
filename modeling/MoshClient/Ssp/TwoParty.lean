import MoshClient.Ssp.SenderRuns
import MoshClient.Ssp.ReceiverRuns

namespace MoshModel

open Transition

/-- A sender and a receiver of one user stream, with the numbers that the receiver reported as latest. -/
structure TwoParty where
  config : SenderConfig
  receiver : SspReceiver UserStream
  reported : List UInt64

inductive TwoPartyAction where
  | sender (action : SenderAction)
  | deliver (inst : TransportInstruction) (now : Nat)
deriving DecidableEq

def SenderAction.acknowledged : SenderAction → Option UInt64
  | .acknowledge ack => some ack
  | _ => none

def latestNum {S : Type} : Except SspError (RecvOutcome S) → Option UInt64
  | .ok (.latest num _ _) => some num
  | _ => none

namespace TwoParty

def start (senderNow receiverNow sendMindelay : Nat) : TwoParty :=
  { config := SenderConfig.start senderNow sendMindelay,
    receiver := SspReceiver.new UserStream.new receiverNow, reported := [] }

/-- The instructions that went out, any of which may arrive late, again or never. -/
def Emitted (system : TwoParty) (inst : TransportInstruction) : Prop :=
  ∃ sending ∈ system.config.sendings, sending.call.inst = inst ∧ sending.fragments ≠ []

instance (system : TwoParty) (inst : TransportInstruction) : Decidable (system.Emitted inst) :=
  inferInstanceAs (Decidable (∃ sending ∈ system.config.sendings, _ ∧ _))

/-- Acknowledgments come from the receiver, whose number is 0 before it reports one. -/
def allowed (system : TwoParty) : TwoPartyAction → Prop
  | .sender action => system.config.allowed action ∧ ∀ ack ∈ action.acknowledged, ack ∈ 0 :: system.reported
  | .deliver inst _ => system.Emitted inst

instance (system : TwoParty) (action : TwoPartyAction) : Decidable (system.allowed action) :=
  match action with
  -- through the one acknowledgment, not through all numbers
  | .sender action => @instDecidableAnd (system.config.allowed action) _ _
      (Option.decidableForallMem action.acknowledged)
  | .deliver inst _ => inferInstanceAs (Decidable (system.Emitted inst))

def next (zlib : Zlib) (system : TwoParty) : TwoPartyAction → TwoParty
  | .sender action => { system with config := system.config.next zlib action }
  | .deliver inst now =>
    let outcome := system.receiver.processInstruction UserStream.applyString inst now
    { system with receiver := outcome.2, reported := system.reported ++ (latestNum outcome.1).toList }

end TwoParty

def twoPartyMachine (zlib : Zlib) (senderNow receiverNow sendMindelay : Nat) :
    Machine TwoParty TwoPartyAction where
  init := TwoParty.start senderNow receiverNow sendMindelay
  allowed := TwoParty.allowed
  next := TwoParty.next zlib

instance (zlib : Zlib) (senderNow receiverNow sendMindelay : Nat) (system : TwoParty)
    (action : TwoPartyAction) :
    Decidable ((twoPartyMachine zlib senderNow receiverNow sendMindelay).allowed system action) :=
  inferInstanceAs (Decidable (system.allowed action))

namespace TwoParty

structure Agreed (zlib : Zlib) (system : TwoParty) : Prop where
  sound : system.config.Sound zlib
  held : ∀ s ∈ system.receiver.received, (s.num, s.state.events) ∈ system.config.assigned
  throwaways : ∀ sending ∈ system.config.sendings,
    sending.call.inst.throwawayNum ≤ system.config.sender.queue.front.num
  fallback : ∀ num ∈ 0 :: system.reported, system.config.sender.queue.front.num ≤ num →
    system.receiver.holds num = true
  front : system.config.sender.queue.front.num ∈ 0 :: system.reported
  produced : ∀ num ∈ system.reported, ∃ sending ∈ system.config.sendings,
    sending.call.inst.newNum = num ∧ sending.fragments ≠ []

theorem start_agreed (zlib : Zlib) (senderNow receiverNow sendMindelay : Nat) :
    (start senderNow receiverNow sendMindelay).Agreed zlib := by
  refine ⟨SenderConfig.start_sound zlib _ _, ?_, by simp [start, SenderConfig.start], ?_, ?_, by simp [start]⟩
  · intro s member
    rw [List.mem_singleton.mp member]
    exact List.mem_singleton.mpr rfl
  · intro num member _
    rw [List.mem_singleton.mp member]
    rfl
  · exact List.mem_singleton.mpr rfl

end TwoParty

theorem Faithful.apply {assigned : List Numbered} {inst : TransportInstruction}
    (functional : ∀ left ∈ assigned, ∀ right ∈ assigned, left.1 = right.1 → left.2 = right.2)
    (faithful : Faithful assigned inst) {old : List UserEvent} (base : (inst.oldNum, old) ∈ assigned) :
    ∃ new, (inst.newNum, new) ∈ assigned ∧
      (if inst.diff = [] then .ok ⟨old⟩ else UserStream.applyString ⟨old⟩ inst.diff) = .ok ⟨new⟩ := by
  obtain ⟨log, tail, fromLog, toLog, diff, short⟩ := faithful.logs
  obtain rfl : log = old := functional _ fromLog _ base rfl
  refine ⟨log ++ tail, toLog, ?_⟩
  by_cases empty : inst.diff = []
  · have nothing : tail = [] := by rwa [diff, UserStream.diffFrom_extension_eq_nil_iff] at empty
    rw [if_pos empty, nothing, List.append_nil]
  · rw [if_neg empty, diff]
    exact UserStream.applyString_diffFrom log tail short

namespace TwoParty

variable {zlib : Zlib} {system : TwoParty}

theorem sender_step (agreed : system.Agreed zlib) {config : SenderConfig} (sound : config.Sound zlib)
    (assigned : ∀ entry ∈ system.config.assigned, entry ∈ config.assigned)
    (front : config.sender.queue.front.num = system.config.sender.queue.front.num)
    (older : ∀ sending ∈ system.config.sendings, sending ∈ config.sendings)
    (newer : ∀ sending ∈ config.sendings, sending ∈ system.config.sendings ∨
      sending.call.inst.throwawayNum = system.config.sender.queue.front.num) :
    Agreed zlib { system with config := config } := by
  refine ⟨sound, fun s member => assigned _ (agreed.held s member), ?_, ?_, ?_, ?_⟩
  · intro sending member
    rw [front]
    rcases newer sending member with old | same
    · exact agreed.throwaways sending old
    · rw [same]
      exact UInt64.le_refl _
  · intro num member reaches
    rw [front] at reaches
    exact agreed.fallback num member reaches
  · rw [front]
    exact agreed.front
  · intro num member
    obtain ⟨sending, sent, produced⟩ := agreed.produced num member
    exact ⟨sending, older sending sent, produced⟩

theorem acknowledge_step (agreed : system.Agreed zlib) {ack : UInt64} (reported : ack ∈ 0 :: system.reported) :
    Agreed zlib { system with config := { system.config with
      sender := system.config.sender.processAcknowledgmentThrough ack } } := by
  have sound := SenderConfig.acknowledge_sound agreed.sound ack
  obtain ⟨base, queued, chronicle, rebased⟩ := agreed.sound.traced
  by_cases known : queued.any fun entry => entry.1 = ack
  · have view := (rebased.acknowledge ack).front
    rw [if_pos known] at view
    obtain ⟨reaches, acked⟩ := chronicle.acknowledged_front known view rebased.front
    replace acked : (system.config.sender.processAcknowledgmentThrough ack).queue.front.num = ack := acked
    replace reaches : system.config.sender.queue.front.num ≤ ack := reaches
    refine ⟨sound, agreed.held, ?_, ?_, ?_, agreed.produced⟩
    · intro sending member
      simp only [acked]
      exact UInt64.le_trans (agreed.throwaways sending member) reaches
    · intro num member above
      simp only [acked] at above
      exact agreed.fallback num member (UInt64.le_trans reaches above)
    · simp only [acked]
      exact reported
  · have same : (system.config.sender.processAcknowledgmentThrough ack).queue.front.num =
        system.config.sender.queue.front.num := by
      have view := (rebased.acknowledge ack).front
      rw [if_neg known, rebased.front] at view
      exact (congrArg Prod.fst (Option.some.inj view)).symm
    exact sender_step agreed sound (fun _ member => member) same (fun _ member => member)
      fun _ member => .inl member

theorem config_step (agreed : system.Agreed zlib) (action : SenderAction)
    (allowed : system.config.allowed action)
    (reported : ∀ ack ∈ action.acknowledged, ack ∈ 0 :: system.reported) :
    Agreed zlib { system with config := system.config.next zlib action } := by
  have sound := SenderConfig.next_sound agreed.sound action allowed
  cases action with
  | acknowledge ack => exact acknowledge_step agreed (reported ack rfl)
  | tick now rto sendInterval mtu =>
    obtain ⟨-, front, -, fresh⟩ :=
      SenderConfig.tick_step agreed.sound now rto sendInterval mtu allowed.2
    refine sender_step agreed sound (fun _ member => List.mem_append_left _ member) front
      (fun _ member => List.mem_append_left _ member) ?_
    intro sending member
    rcases List.mem_append.mp member with old | new
    · exact .inl old
    · exact .inr (fresh sending (Option.mem_toList.mp new)).throwaway
  | startShutdown now =>
    refine sender_step agreed sound (fun _ member => member) ?_ (fun _ member => member)
      fun _ member => .inl member
    simp only [SenderConfig.next, SspSender.startShutdown]
    split <;> rfl
  | pushBytes _ | pushResize _ _ | setAckNum _ | setDataAck | remoteHeard _ | waitTime _ _ _ =>
    exact sender_step agreed sound (fun _ member => member) rfl (fun _ member => member)
      fun _ member => .inl member

theorem latestNum_uninserted {S : Type} {result : Except SspError (RecvOutcome S)}
    (uninserted : insertedNum result = none) : latestNum result = none := by
  rcases result with e | outcome
  · rfl
  · cases outcome <;> first | rfl | cases uninserted

theorem latestNum_insertState {S : Type} {base : SspReceiver S} {added : TimestampedState S}
    {hadDiff : Bool} : ∀ num ∈ latestNum (.ok (base.insertState added hadDiff).1), num = added.num := by
  unfold SspReceiver.insertState
  split
  · exact fun num member => (Option.some.inj member).symm
  · exact fun num member => by cases member

theorem holds_kept {S : Type} {receiver base : SspReceiver S} {throwawayNum front num : UInt64}
    (throwaway : throwawayNum ≤ front) (above : front ≤ num) (held : receiver.holds num = true)
    (queue : base.received = receiver.kept throwawayNum) : base.holds num = true := by
  obtain ⟨s, member, rfl⟩ := (SspReceiver.holds_iff receiver num).mp held
  refine (SspReceiver.holds_iff base s.num).mpr ⟨s, ?_, rfl⟩
  rw [queue, SspReceiver.mem_kept]
  exact ⟨member, UInt64.le_trans throwaway above⟩

theorem deliver_step (agreed : system.Agreed zlib) (inst : TransportInstruction) (now : Nat)
    (emitted : system.Emitted inst) : Agreed zlib (system.next zlib (.deliver inst now)) := by
  obtain ⟨sending, sent, rfl, whole⟩ := emitted
  have faithful := agreed.sound.faithful sending sent
  have throwaway := agreed.throwaways sending sent
  obtain ⟨_, _, chronicle, -⟩ := agreed.sound.traced
  have cases := SspReceiver.processInstruction_cases UserStream.applyString system.receiver
    sending.call.inst now
  unfold next
  dsimp only
  generalize system.receiver.processInstruction UserStream.applyString sending.call.inst now = outcome at *
  obtain ⟨result, after⟩ := outcome
  have unreported : insertedNum result = none → (latestNum result).toList = [] := fun uninserted => by
    rw [latestNum_uninserted uninserted]
    rfl
  cases cases with
  | refused unculled uninserted =>
    rw [unreported uninserted, List.append_nil]
    exact agreed
  | dropped culled uninserted queue =>
    rw [unreported uninserted, List.append_nil]
    refine ⟨agreed.sound, ?_, agreed.throwaways, ?_, agreed.front, agreed.produced⟩
    · intro s member
      rw [queue, SspReceiver.mem_kept] at member
      exact agreed.held s member.1
    · intro num member above
      exact holds_kept throwaway above (agreed.fallback num member above) queue
  | @inserted reference state base after culled queue held named applied insertion =>
    subst insertion
    rw [queue, SspReceiver.mem_kept] at held
    have origin := agreed.held reference held.1
    rw [named] at origin
    obtain ⟨new, assigned, diffed⟩ := faithful.apply chronicle.functional origin
    obtain rfl : (⟨new⟩ : UserStream) = state := Except.ok.inj (diffed.symm.trans applied)
    have report : ∀ num ∈ (latestNum (.ok (base.insertState
        { timestamp := now, num := sending.call.inst.newNum, state := ⟨new⟩ }
          (!sending.call.inst.diff.isEmpty)).1)).toList, num = sending.call.inst.newNum :=
      fun num member => latestNum_insertState num (Option.mem_toList.mp member)
    refine ⟨agreed.sound, ?_, agreed.throwaways, ?_, ?_, ?_⟩
    · intro s member
      rcases (SspReceiver.mem_insertState _ _ _ _).mp member with rfl | old
      · exact assigned
      · rw [queue, SspReceiver.mem_kept] at old
        exact agreed.held s old.1
    · intro num member above
      rw [SspReceiver.holds_iff]
      simp only [SspReceiver.mem_insertState]
      rw [← List.cons_append] at member
      rcases List.mem_append.mp member with old | new
      · obtain ⟨s, stays, same⟩ := (SspReceiver.holds_iff base num).mp
          (holds_kept throwaway above (agreed.fallback num old above) queue)
        exact ⟨s, .inr stays, same⟩
      · exact ⟨_, .inl rfl, (report num new).symm⟩
    · rw [← List.cons_append]
      exact List.mem_append_left _ agreed.front
    · intro num member
      rcases List.mem_append.mp member with old | new
      · exact agreed.produced num old
      · exact ⟨sending, sent, (report num new).symm, whole⟩

theorem next_agreed (agreed : system.Agreed zlib) (action : TwoPartyAction)
    (allowed : system.allowed action) : (system.next zlib action).Agreed zlib := by
  cases action with
  | sender action => exact config_step agreed action allowed.1 allowed.2
  | deliver inst now => exact deliver_step agreed inst now allowed

theorem reachable_agreed {senderNow receiverNow sendMindelay : Nat}
    (reached : (twoPartyMachine zlib senderNow receiverNow sendMindelay).Reachable system) :
    system.Agreed zlib :=
  reached.invariant (motive := fun system => system.Agreed zlib) (start_agreed zlib _ _ _)
    fun _ action _ agreed allowed => next_agreed agreed action allowed

end TwoParty

end MoshModel
