import MoshClient.Session.DrivenSender
import MoshClient.Ssp.Recovery

namespace MoshModel

open Transition

namespace SspSender

variable {S : Type}

theorem Requeued.front_num {sender : SspSender S} {now : Nat} {inst : TransportInstruction} {queue : SentQueue S}
    (requeued : Requeued sender now inst queue.sentStates) : queue.front.num = sender.queue.front.num := by
  have head := queue.head?_eq_front
  generalize queue.sentStates = states at requeued head
  cases requeued with
  | appended num =>
    rw [SentQueue.cull_head?, List.head?_append, SentQueue.head?_eq_front] at head
    exact congrArg TimestampedState.num (Option.some.inj head).symm
  | refreshed num carries settled =>
    have nums := sender.queue.refreshBack_map now TimestampedState.num fun _ => rfl
    have heads := congrArg List.head? nums
    rw [List.head?_map, List.head?_map, head, SentQueue.head?_eq_front] at heads
    exact Option.some.inj heads

variable [DecidableEq S] [SspSentState S]

theorem tick_front_num (zlib : Zlib) (sender : SspSender S) (now rto sendInterval mtu : Nat) (fragmenter : Fragmenter) :
    (sender.tick zlib now rto sendInterval mtu fragmenter).sender.queue.front.num = sender.queue.front.num := by
  have prepared := sender.prepared_front now rto
  obtain ⟨-, -, -, ⟨-, -, same⟩ | ⟨base, inst, -, requeued, -⟩⟩ :=
    sender.tick_due zlib now rto sendInterval mtu fragmenter
  · rw [front_congr same]
    exact prepared
  · exact (Requeued.front_num requeued).trans prepared

end SspSender

namespace SessionLoop

variable {D : Type}

/-- The number that the embedder sees acknowledged is the oldest that the sender keeps. -/
def Acked (loop : SessionLoop D) : Prop := loop.shared.userAcked = loop.sender.queue.front.num

variable [MoshDisplay D]

theorem Acked.handle {loop : SessionLoop D} (acked : loop.Acked) (addresses : Nat → Address)
    (inst : TransportInstruction) (now : Nat) : (loop.handleInstruction addresses inst now).Acked := by
  unfold handleInstruction
  by_cases version : inst.protocolVersion ≠ moshProtocolVersion
  · rw [if_pos version]
    exact acked
  · rw [if_neg version]
    dsimp only
    generalize (loop.acknowledge inst.ackNum).receiver.processInstruction (HostStreamState.applyString addresses)
      inst now = outcome
    obtain ⟨result, receiver⟩ := outcome
    cases result with
    | error e => exact rfl
    | ok outcome =>
      cases outcome with
      | latest num hadDiff state =>
        unfold Acked
        rw [(showLatest_frame _ num).2.1, (showLatest_spec _ num).2.2.1]
        cases hadDiff <;> rfl
      | outOfOrder num hadDiff => exact rfl
      | duplicate => exact rfl
      | noReference => exact rfl
      | quenched => exact rfl

theorem Acked.next {loop : SessionLoop D} (acked : loop.Acked) (zlib : Zlib) (action : SessionAction) :
    (loop.next zlib action).Acked := by
  cases action with
  | handle inst addresses now => exact acked.handle addresses inst now
  | tick now rto sendInterval mtu =>
    unfold Acked SessionLoop.next
    dsimp only
    rw [SspSender.tick_front_num]
    exact acked
  | waitTime now rto sendInterval => exact acked
  | takeHostBytes => exact acked
  | setHostBytesCapture enabled => exact acked
  | setPrediction enabled => exact acked
  | resizeDisplay width height =>
    unfold SessionLoop.next resizeDisplay
    dsimp only
    split <;> exact acked
  | drain command now =>
    cases command with
    | terminate => exact acked
    | startShutdown =>
      unfold SessionLoop.next drainCommand SspSender.startShutdown
      dsimp only
      split <;> exact acked
    | resize width height =>
      unfold SessionLoop.next drainCommand
      dsimp only
      split <;> exact acked
    | input bytes =>
      unfold SessionLoop.next drainCommand predictInput
      dsimp only
      split
      · exact acked
      · split
        · exact acked
        · split <;> exact acked

theorem handleInstruction_receiver (loop : SessionLoop D) (addresses : Nat → Address) (inst : TransportInstruction)
    (now : Nat) :
    (loop.handleInstruction addresses inst now).receiver =
      (loop.receiver.processInstruction (HostStreamState.applyString addresses) inst now).2 := by
  have cases := loop.handleInstruction_cases addresses inst now
  generalize loop.receiver.processInstruction (HostStreamState.applyString addresses) inst now = outcome at *
  generalize loop.handleInstruction addresses inst now = after at *
  cases cases with
  | kept queue older display position acked told => exact queue
  | @shown num hadDiff state receiver heard queue display position acked told =>
    exact (heard.showLatest_spec num).2.1.trans queue

end SessionLoop

namespace SspReceiver

variable {S : Type}

theorem processInstruction_nums (applyString : S → Bytes → Except WireError S) (receiver : SspReceiver S)
    (inst : TransportInstruction) (now : Nat) :
    ∀ s ∈ (receiver.processInstruction applyString inst now).2.received,
      s.num = inst.newNum ∨ s ∈ receiver.received := by
  have cases := processInstruction_cases applyString receiver inst now
  generalize receiver.processInstruction applyString inst now = outcome at *
  obtain ⟨result, after⟩ := outcome
  intro s member
  cases cases with
  | refused unculled uninserted => exact .inr member
  | dropped culled uninserted queue =>
    dsimp only at member
    rw [queue, mem_kept] at member
    exact .inr member.1
  | @inserted reference state base after culled queue held named applied insertion =>
    subst insertion
    rcases (mem_insertState _ _ _ _).mp member with rfl | old
    · exact .inl rfl
    · rw [queue, mem_kept] at old
      exact .inr old.1

end SspReceiver

namespace RunLoop

variable {D F : Type} [MoshDisplay D]

/-- The loop within changes by a step of the session, by an instruction taken in, or in its events and its
    fatal error alone. -/
theorem Stepped.within {code : LoopCode F} {run after : RunLoop D F} {action : RunAction}
    (stepped : Stepped code run action after) :
    (∃ events fatal, (fatal = run.wired.loop.fatal ∨ fatal = some "mosh: session exhausted its key budget") ∧
        after.wired.loop = { run.wired.loop with events := events, fatal := fatal }) ∨
      (∃ bytes addresses now sampled inst, action = .receive bytes addresses now sampled ∧
        Takes code run action inst ∧ after.wired.loop = run.wired.loop.handleInstruction addresses inst now) ∨
      ∃ inner : SessionAction, (∀ inst addresses now, inner ≠ .handle inst addresses now) ∧
        after.wired.loop = run.wired.loop.next code.zlib inner := by
  have same : (∃ events fatal, (fatal = run.wired.loop.fatal ∨ fatal = some "mosh: session exhausted its key budget") ∧
      run.wired.loop = { run.wired.loop with events := events, fatal := fatal }) :=
    ⟨run.wired.loop.events, run.wired.loop.fatal, .inl rfl, rfl⟩
  cases stepped with
  | woke _ _ | terminated _ | passed _ => exact .inl same
  | failed _ _ => exact .inl ⟨_, _, .inl rfl, rfl⟩
  | @commanded now command _ _ => exact .inr (.inr ⟨.drain command now, (fun _ _ _ same => by cases same), rfl⟩)
  | ticked _ _ _ => exact .inr (.inr ⟨.tick _ _ _ _, (fun _ _ _ same => by cases same), rfl⟩)
  | @sent top now stamped mtu oversize fragment out _ _ _ _ =>
    dsimp only
    have acted := run.wired.next_acted code.toWireCode (.send fragment now stamped)
    generalize (run.wired.next code.toWireCode (.send fragment now stamped)).loop = loop at acted ⊢
    cases acted with
    | @sent _ _ _ fatal exhausted => exact .inl ⟨run.wired.loop.events, fatal, exhausted, rfl⟩
  | @quit now bound _ _ =>
    have loop := congrArg WiredLoop.loop (run.settled_frame now bound).1
    refine .inl ⟨(run.settled now bound).wired.loop.events ++ [.ended true none], run.wired.loop.fatal, .inl rfl, ?_⟩
    rw [← loop]
    rfl
  | @shutDown now bound _ _ _ =>
    have loop := congrArg WiredLoop.loop (run.settled_frame now bound).1
    refine .inl ⟨(run.settled now bound).wired.loop.events ++ [.ended run.wired.loop.sender.shutdownAcknowledged none],
      run.wired.loop.fatal, .inl rfl, ?_⟩
    rw [← loop]
    rfl
  | waited _ _ _ _ _ => exact .inr (.inr ⟨.waitTime _ _ _, (fun _ _ _ same => by cases same), rfl⟩)
  | @received wait older drained now sampled bytes addresses _ _ _ =>
    dsimp only
    have acted := run.wired.next_acted code.toWireCode (.datagram bytes addresses now sampled)
    generalize (run.wired.next code.toWireCode (.datagram bytes addresses now sampled)).loop = loop at acted ⊢
    cases acted with
    | dropped => exact .inl same
    | @handled _ _ _ _ fragment inst carried completed =>
      exact .inr (.inl ⟨bytes, addresses, now, sampled, inst, rfl,
        ⟨bytes, addresses, now, sampled, fragment, rfl, carried, completed⟩, rfl⟩)
  | called call => exact .inr (.inr ⟨call.action, call.quiet.1, rfl⟩)

theorem Stepped.learned {code : LoopCode F} {run after : RunLoop D F} {action : RunAction}
    (stepped : Stepped code run action after) :
    ∀ s ∈ after.wired.loop.receiver.received, s ∈ run.wired.loop.receiver.received ∨
      ∃ inst, Takes code run action inst ∧ s.num = inst.newNum := by
  intro s member
  obtain ⟨events, fatal, -, same⟩ | ⟨bytes, addresses, now, sampled, inst, -, takes, handled⟩ |
    ⟨inner, unhandled, next⟩ := stepped.within
  · rw [same] at member
    exact .inl member
  · have nums := SspReceiver.processInstruction_nums (HostStreamState.applyString addresses)
      run.wired.loop.receiver inst now
    rw [handled, SessionLoop.handleInstruction_receiver] at member
    rcases nums s member with new | old
    · exact .inr ⟨inst, takes, new⟩
    · exact .inl old
  · rw [next, (run.wired.loop.next_frame code.zlib inner unhandled).1] at member
    exact .inl member

theorem Stepped.acked {code : LoopCode F} {run after : RunLoop D F} {action : RunAction}
    (stepped : Stepped code run action after) (acked : run.wired.loop.Acked) : after.wired.loop.Acked := by
  obtain ⟨events, fatal, -, same⟩ | ⟨bytes, addresses, now, sampled, inst, -, takes, handled⟩ |
    ⟨inner, unhandled, next⟩ := stepped.within
  · rw [same]
    exact acked
  · rw [handled]
    exact acked.handle addresses inst now
  · rw [next]
    exact acked.next code.zlib inner

end RunLoop

end MoshModel
