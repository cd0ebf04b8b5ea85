import MoshClient.Ssp.Outlook

namespace MoshModel

open Transition SenderConfig

def Ticked.out {S : Type} (ticked : Ticked S) : List Fragment := ticked.sending.elim [] Sending.fragments

def Ticked.instruction {S : Type} (ticked : Ticked S) : Option TransportInstruction :=
  ticked.sending.map fun sending => sending.call.inst

namespace SspSender

section Sleep

variable {S : Type} {sender : SspSender S} {now rto sendInterval t : Nat}

/-- The first time after `now` at which a tick retries from the oldest state: the state after it has
    outlived the benefit of the doubt, and neither the send interval nor the mindelay holds it back. -/
def retryOpens (sender : SspSender S) (now rto sendInterval : Nat) : Nat :=
  max (now + 1) (max (sender.queue.back.timestamp + sendInterval)
    (max (sender.mindelayClock.elim 0 (· + sender.sendMindelay))
      (sender.queue.sentStates.tail.head?.elim 0 fun second => second.timestamp + rto + ackDelayMs)))

/-- At `now` the newest state is taken to have arrived, and a retry for it is planned for the time when it
    has outlived the doubt itself; but the state after the oldest outlives it earlier, and nothing else
    ends the sleep before that. -/
structure Oversleeps (sender : SspSender S) (now rto sendInterval : Nat) : Prop where
  level : sender.currentState = sender.queue.back.state
  trusted : sender.currentState = sender.queue.assumed.state
  unacked : sender.currentState ≠ sender.queue.front.state
  going : ¬sender.Closing
  newest : sender.retryOpens now rto sendInterval < sender.queue.back.timestamp + rto + ackDelayMs
  ack : sender.retryOpens now rto sendInterval < sender.nextAckTime
  answered : sender.pendingDataAck = true → sender.retryOpens now rto sendInterval < now + ackDelayMs
  heard : sender.retryOpens now rto sendInterval < sender.lastHeard + activeRetryTimeoutMs

theorem stale_iff
    (ordered : sender.queue.sentStates.Pairwise fun earlier later => earlier.timestamp ≤ later.timestamp)
    (longer : 1 < sender.queue.sentStates.length) :
    sender.outlook.Stale rto t ↔
      (sender.queue.sentStates.tail.head?.elim 0 fun second => second.timestamp + rto + ackDelayMs) ≤ t := by
  have sorted := ordered.sublist (List.tail_sublist _)
  unfold Outlook.Stale outlook
  cases states : sender.queue.sentStates.tail with
  | nil =>
    have length := congrArg List.length states
    rw [List.length_tail, List.length_nil] at length
    omega
  | cons second rest =>
    rw [states] at sorted
    simp only [List.map_cons, List.head?_cons, Option.elim_some]
    constructor
    · rintro ⟨sent, listed, old⟩
      rcases List.mem_cons.mp listed with rfl | listed
      · exact old
      · obtain ⟨s, stored, rfl⟩ := List.mem_map.mp listed
        have := (List.pairwise_cons.mp sorted).1 s stored
        omega
    · intro old
      exact ⟨_, List.mem_cons_self, old⟩

variable [DecidableEq S]

theorem clock_level (level : sender.currentState = sender.queue.back.state) (now rto sendInterval : Nat) :
    (sender.computeTimers now rto sendInterval).2.mindelayClock = sender.mindelayClock :=
  if_neg fun ahead => ahead.1 level

theorem clock_ahead (ahead : sender.currentState ≠ sender.queue.back.state) (now rto sendInterval : Nat) :
    (sender.computeTimers now rto sendInterval).2.mindelayClock = some (sender.mindelayClock.getD now) := by
  show (if sender.currentState ≠ sender.queue.back.state ∧ sender.mindelayClock = none
    then some now else sender.mindelayClock) = _
  cases sender.mindelayClock with
  | none => rw [if_pos ⟨ahead, rfl⟩, Option.getD_none]
  | some m => rw [if_neg fun unset => Option.some_ne_none m unset.2, Option.getD_some]

theorem level_of_due (later : now < t) (asleep : t < now + (sender.waitTime now rto sendInterval).1)
    (due : (sender.computeTimers now rto sendInterval).2.outlook.SendDue rto sendInterval t) :
    sender.currentState = sender.queue.back.state := by
  by_contra ahead
  have early := ((sender.lt_waitTime_iff rto sendInterval (Nat.le_of_lt later)).mp asleep).2 _
    (nextSend_ahead ahead now rto sendInterval)
  have spaced : sender.queue.back.timestamp + sendInterval ≤ t := due.spaced
  have waited : sender.mindelayClock.getD now + sender.sendMindelay ≤ t :=
    due.delayed _ (clock_ahead ahead now rto sendInterval)
  omega

theorem retryOpens_le_of_due
    (ordered : sender.queue.sentStates.Pairwise fun earlier later => earlier.timestamp ≤ later.timestamp)
    (later : now < t) (level : sender.currentState = sender.queue.back.state)
    (due : (sender.computeTimers now rto sendInterval).2.outlook.SendDue rto sendInterval t) :
    sender.retryOpens now rto sendInterval ≤ t := by
  obtain ⟨unacked, stale, -⟩ := due.retry level
  have delayed : ∀ m ∈ sender.mindelayClock, m + sender.sendMindelay ≤ t := by
    rw [← clock_level level now rto sendInterval]
    exact due.delayed
  have second := (stale_iff ordered (length_of_unacked level unacked)).mp stale
  exact Nat.max_le.mpr ⟨later, Nat.max_le.mpr ⟨due.spaced,
    Nat.max_le.mpr ⟨(mindelay_iff _ _ _).mp delayed, second⟩⟩⟩

/-- A send that falls due before the end of the sleep is a retry that the timers did not see coming. -/
theorem oversleeps_of_due
    (ordered : sender.queue.sentStates.Pairwise fun earlier later => earlier.timestamp ≤ later.timestamp)
    (later : now < t) (asleep : t < now + (sender.waitTime now rto sendInterval).1)
    (due : (sender.computeTimers now rto sendInterval).2.outlook.SendDue rto sendInterval t) :
    sender.Oversleeps now rto sendInterval := by
  have level := level_of_due later asleep due
  have opens := retryOpens_le_of_due ordered later level due
  obtain ⟨beforeAck, beforeSend⟩ := (sender.lt_waitTime_iff rto sendInterval (Nat.le_of_lt later)).mp asleep
  obtain ⟨-, closing, going⟩ := sender.computeTimers_deadline now rto sendInterval
  have spaced : sender.queue.back.timestamp + sendInterval ≤ t := due.spaced
  have unacked : sender.currentState ≠ sender.queue.front.state := (due.retry level).1
  have heard : t < sender.lastHeard + activeRetryTimeoutMs := (due.retry level).2.2
  have trusted : ¬(sender.currentState ≠ sender.queue.assumed.state ∧
      now < sender.lastHeard + activeRetryTimeoutMs) := by
    intro behind
    obtain ⟨-, retry⟩ := Nat.max_le.mp opens
    obtain ⟨-, waited⟩ := Nat.max_le.mp retry
    have delayed := (Nat.max_le.mp waited).1
    exact Nat.not_lt_of_le (Nat.max_le.mpr ⟨spaced, delayed⟩)
      (beforeSend _ (nextSend_behind level behind rto sendInterval))
  have planned := nextSend_retry level trusted rto sendInterval
  rw [if_pos ⟨length_of_unacked level unacked, unacked, Nat.lt_trans later heard⟩] at planned
  have early := beforeSend _ planned
  have open_ : ¬sender.Closing := by
    intro shut
    rw [closing shut] at beforeAck
    omega
  rw [going open_] at beforeAck
  have hurried := sender.hurriedAck_le now
  refine ⟨level, ?_, unacked, open_, ?_, ?_, fun pending => ?_, ?_⟩
  · by_contra differs
    exact trusted ⟨differs, Nat.lt_trans later heard⟩
  · exact Nat.lt_of_le_of_lt opens early
  · omega
  · have prompt := sender.hurriedAck_prompt now pending
    omega
  · exact Nat.lt_of_le_of_lt opens heard

theorem Oversleeps.due (oversleeps : sender.Oversleeps now rto sendInterval)
    (ordered : sender.queue.sentStates.Pairwise fun earlier later => earlier.timestamp ≤ later.timestamp) :
    ∃ t, now < t ∧ t < now + (sender.waitTime now rto sendInterval).1 ∧
      (sender.computeTimers now rto sendInterval).2.outlook.SendDue rto sendInterval t := by
  obtain ⟨level, trusted, unacked, open_, newest, ack, answered, heard⟩ := oversleeps
  have longer := length_of_unacked level unacked
  obtain ⟨later, rest⟩ := Nat.max_le.mp (Nat.le_refl (sender.retryOpens now rto sendInterval))
  obtain ⟨spaced, rest⟩ := Nat.max_le.mp rest
  obtain ⟨delayed, second⟩ := Nat.max_le.mp rest
  generalize sender.retryOpens now rto sendInterval = t at *
  refine ⟨t, later, (sender.lt_waitTime_iff rto sendInterval (Nat.le_of_lt later)).mpr ⟨?_, fun due scheduled => ?_⟩, ?_⟩
  · rw [(sender.computeTimers_deadline now rto sendInterval).2.2 open_, hurriedAck]
    split
    · rename_i pending
      exact answered pending.1
    · exact ack
  · rw [nextSend_retry level (fun behind => behind.1 trusted) rto sendInterval,
      if_pos ⟨longer, unacked, Nat.lt_trans later heard⟩] at scheduled
    exact Option.some.inj scheduled ▸ newest
  · refine ⟨spaced, fun clock running => ?_, fun ahead => absurd level ahead,
      fun _ => ⟨unacked, (stale_iff ordered longer).mpr second, heard⟩⟩
    exact (mindelay_iff _ _ _).mpr delayed clock ((clock_level level now rto sendInterval).symm.trans running)

end Sleep

section Emission

variable {S : Type}

theorem sendInFragments_instruction (zlib : Zlib) (sender : SspSender S) (diff : Bytes)
    (oldNum newNum : UInt64) (mtu : Nat) (fragmenter : Fragmenter) :
    Ticked.instruction (sender.sendInFragments zlib diff oldNum newNum mtu fragmenter) =
      some (sender.frame diff oldNum newNum) := by
  obtain ⟨-, -, -, -, sending, -⟩ := sender.sendInFragments_spec zlib diff oldNum newNum mtu fragmenter
  unfold Ticked.instruction
  rw [sending, Option.map_some, Fragmenter.send_call]

theorem sendEmptyAck_instruction (zlib : Zlib) (sender : SspSender S) (now mtu other : Nat)
    (fragmenter : Fragmenter) :
    Ticked.instruction (sender.sendEmptyAck zlib now mtu fragmenter) =
      Ticked.instruction (sender.sendEmptyAck zlib now other fragmenter) := by
  unfold sendEmptyAck
  dsimp only
  generalize (if sender.shutdownInProgress then shutdownNum else sender.queue.back.num + 1) = newNum
  have added := fun mtu => sendInFragments_instruction zlib
    { sender with queue := sender.queue.addSentState now newNum sender.currentState } []
    sender.queue.assumed.num newNum mtu fragmenter
  exact (added mtu).trans (added other).symm

variable [DecidableEq S]

theorem sendToReceiver_instruction (zlib : Zlib) (sender : SspSender S) (now : Nat) (diff : Bytes)
    (mtu other : Nat) (fragmenter : Fragmenter) :
    Ticked.instruction (sender.sendToReceiver zlib now diff mtu fragmenter) =
      Ticked.instruction (sender.sendToReceiver zlib now diff other fragmenter) := by
  unfold sendToReceiver
  dsimp only
  generalize (if sender.shutdownInProgress then shutdownNum
    else if sender.currentState = sender.queue.back.state then sender.queue.back.num
      else sender.queue.back.num + 1) = newNum
  generalize (if newNum = sender.queue.back.num then sender.queue.refreshBack now
    else sender.queue.addSentState now newNum sender.currentState) = requeued
  have added := fun mtu => sendInFragments_instruction zlib { sender with queue := requeued } diff
    sender.queue.assumed.num newNum mtu fragmenter
  exact (added mtu).trans (added other).symm

variable [SspSentState S]

theorem sendDue_instruction (zlib : Zlib) (sender : SspSender S) (dueSend dueAck : Bool)
    (now mtu other : Nat) (fragmenter : Fragmenter) :
    Ticked.instruction (sender.sendDue zlib dueSend dueAck now mtu fragmenter) =
      Ticked.instruction (sender.sendDue zlib dueSend dueAck now other fragmenter) := by
  unfold sendDue
  dsimp only
  generalize sender.attemptProspectiveResendOptimization
    (SspSentState.diffFrom sender.currentState sender.queue.assumed.state) = attempt
  obtain ⟨diff, based⟩ := attempt
  dsimp only
  by_cases empty : diff.isEmpty = true
  · rw [if_pos empty, if_pos empty]
    have same := based.sendEmptyAck_instruction zlib now mtu other fragmenter
    generalize based.sendEmptyAck zlib now mtu fragmenter = one at same ⊢
    generalize based.sendEmptyAck zlib now other fragmenter = another at same ⊢
    cases dueAck with
    | true => cases dueSend <;> exact same
    | false => cases dueSend <;> rfl
  · rw [if_neg empty, if_neg empty]
    exact based.sendToReceiver_instruction zlib now diff mtu other fragmenter

theorem tick_instruction (zlib : Zlib) (sender : SspSender S)
    (now rto sendInterval mtu other : Nat) (fragmenter : Fragmenter) :
    Ticked.instruction (sender.tick zlib now rto sendInterval mtu fragmenter) =
      Ticked.instruction (sender.tick zlib now rto sendInterval other fragmenter) := by
  by_cases due : sender.dueSend now rto sendInterval = true ∨ sender.dueAck now rto sendInterval = true
  · rw [tick_of_due zlib sender now rto sendInterval mtu fragmenter due,
      tick_of_due zlib sender now rto sendInterval other fragmenter due]
    exact sendDue_instruction zlib _ _ _ now mtu other fragmenter
  · rw [not_or, Bool.not_eq_true, Bool.not_eq_true] at due
    rw [tick_quiet zlib sender now rto sendInterval mtu fragmenter due.1 due.2,
      tick_quiet zlib sender now rto sendInterval other fragmenter due.1 due.2]

theorem tick_out (zlib : Zlib) (sender : SspSender S) (now rto sendInterval : Nat)
    (fragmenter : Fragmenter)
    (emits : ∀ mtu, (sender.tick zlib now rto sendInterval mtu fragmenter).sending.isSome = true) :
    ∃ mtu, (sender.tick zlib now rto sendInterval mtu fragmenter).out ≠ [] := by
  obtain ⟨first, sent⟩ := Option.isSome_iff_exists.mp (emits 0)
  generalize payloadEq : zlibCompress zlib first.call.inst.encode = payload
  refine ⟨fragHeaderLen + (payload.length + 1), ?_⟩
  have same := sender.tick_instruction zlib now rto sendInterval 0 (fragHeaderLen + (payload.length + 1)) fragmenter
  obtain ⟨-, -, -, ⟨silent, -⟩ | ⟨base, inst, -, -, sending, -⟩⟩ :=
    sender.tick_due zlib now rto sendInterval (fragHeaderLen + (payload.length + 1)) fragmenter
  · have loud := emits (fragHeaderLen + (payload.length + 1))
    rw [silent] at loud
    cases loud
  · unfold Ticked.instruction at same
    rw [sent, sending, Option.map_some, Option.map_some, Fragmenter.send_call] at same
    obtain rfl := Option.some.inj same
    unfold Ticked.out
    rw [sending, Option.elim_some, Fragmenter.send,
      Fragmenter.makeFragments_eq zlib fragmenter _ (Nat.lt_add_of_pos_right (Nat.succ_pos _)), payloadEq,
      Fragmenter.sliceFrom, if_neg (Nat.not_lt_zero _), if_neg (by omega)]
    exact List.cons_ne_nil _ _

end Emission

end SspSender

/-- What may happen to a sender that sleeps and gets no news: ticks and looks at the timers before the end
    of its sleep. -/
inductive Dozing (zlib : Zlib) (rto sendInterval now wake : Nat) (asleep : SenderConfig) : SenderConfig → Prop
  | asleep : Dozing zlib rto sendInterval now wake asleep asleep
  | waitTime {config : SenderConfig} (t : Nat) : Dozing zlib rto sendInterval now wake asleep config →
      now < t → t < wake → config.allowed (.waitTime t rto sendInterval) →
        Dozing zlib rto sendInterval now wake asleep (config.next zlib (.waitTime t rto sendInterval))
  | tick {config : SenderConfig} (t mtu : Nat) : Dozing zlib rto sendInterval now wake asleep config →
      now < t → t < wake → config.allowed (.tick t rto sendInterval mtu) →
        Dozing zlib rto sendInterval now wake asleep (config.next zlib (.tick t rto sendInterval mtu))

def NeverOversleeps (zlib : Zlib) (config : SenderConfig) (now rto sendInterval : Nat) : Prop :=
  let wake := now + (config.sender.waitTime now rto sendInterval).1
  ∀ awake, Dozing zlib rto sendInterval now wake (config.next zlib (.waitTime now rto sendInterval)) awake →
    ∀ t mtu, now < t → t < wake → awake.clock ≤ t →
      (awake.sender.tick zlib t rto sendInterval mtu awake.fragmenter).out = []

namespace SenderConfig

variable {zlib : Zlib} {start sendMindelay : Nat} {config : SenderConfig} {now rto sendInterval : Nat}

theorem reachable_next (reached : (senderMachine zlib start sendMindelay).Reachable config)
    (action : SenderAction) (allowed : config.allowed action) :
    (senderMachine zlib start sendMindelay).Reachable (config.next zlib action) :=
  @Machine.Reachable.step _ _ _ _ action reached allowed

theorem reachable_nested (reached : (senderMachine zlib start sendMindelay).Reachable config) :
    config.sender.Nested :=
  ⟨(reachable_queue reached).streams, (reachable_queue reached).current⟩

theorem quiet_tick_outlook (nested : config.sender.Nested) (mtu : Nat) {t : Nat}
    (settled : config.sender.outlook.Settled sendInterval t)
    (noSend : config.sender.dueSend t rto sendInterval = false)
    (noAck : config.sender.dueAck t rto sendInterval = false) :
    (config.tick zlib t rto sendInterval mtu).sender.outlook = config.sender.outlook := by
  have same := nested.prepared_outlook t rto
  unfold SenderConfig.tick
  rw [config.sender.tick_quiet zlib t rto sendInterval mtu config.fragmenter noSend noAck]
  rw [← same] at settled
  exact (SspSender.computeTimers_outlook settled rto).trans same

theorem dozing_quiet {asleep awake : SenderConfig} {wake : Nat}
    (reached : (senderMachine zlib start sendMindelay).Reachable asleep)
    (settled : asleep.sender.outlook.Settled sendInterval now)
    (beforeAck : ∀ t, now < t → t < wake → ¬asleep.sender.outlook.AckDue sendInterval t)
    (beforeSend : ∀ t, now < t → t < wake → ¬asleep.sender.outlook.SendDue rto sendInterval t)
    (dozing : Dozing zlib rto sendInterval now wake asleep awake) :
    (senderMachine zlib start sendMindelay).Reachable awake ∧ awake.sender.outlook = asleep.sender.outlook ∧
      ∀ t, now < t → t < wake → awake.sender.dueSend t rto sendInterval = false ∧
        awake.sender.dueAck t rto sendInterval = false := by
  have quiet : ∀ config, (senderMachine zlib start sendMindelay).Reachable config →
      config.sender.outlook = asleep.sender.outlook → ∀ t, now < t → t < wake →
        config.sender.dueSend t rto sendInterval = false ∧ config.sender.dueAck t rto sendInterval = false := by
    intro config reached same t later early
    have nested := reachable_nested reached
    have noSend := beforeSend t later early
    have noAck := beforeAck t later early
    rw [← same, ← nested.dueSend_iff (reachable_queue reached).timestamps, Bool.not_eq_true] at noSend
    rw [← same, ← nested.dueAck_iff t rto, Bool.not_eq_true] at noAck
    exact ⟨noSend, noAck⟩
  induction dozing with
  | asleep => exact ⟨reached, rfl, quiet asleep reached rfl⟩
  | @waitTime config t _ later early allowed ih =>
    obtain ⟨held, same, -⟩ := ih
    have after : (config.next zlib (.waitTime t rto sendInterval)).sender.outlook = asleep.sender.outlook := by
      have still := settled.later (Nat.le_of_lt later)
      rw [← same] at still
      exact (SspSender.computeTimers_outlook still rto).trans same
    have stepped := reachable_next held _ allowed
    exact ⟨stepped, after, quiet _ stepped after⟩
  | @tick config t mtu _ later early allowed ih =>
    obtain ⟨held, same, silent⟩ := ih
    have after : (config.next zlib (.tick t rto sendInterval mtu)).sender.outlook = asleep.sender.outlook := by
      have still := settled.later (Nat.le_of_lt later)
      rw [← same] at still
      obtain ⟨noSend, noAck⟩ := silent t later early
      exact (quiet_tick_outlook (reachable_nested held) mtu still noSend noAck).trans same
    have stepped := reachable_next held _ allowed
    exact ⟨stepped, after, quiet _ stepped after⟩

theorem not_neverOversleeps_of_oversleeps (reached : (senderMachine zlib start sendMindelay).Reachable config)
    (clock : config.clock ≤ now)
    (oversleeps : config.sender.Oversleeps now rto sendInterval) :
    ¬NeverOversleeps zlib config now rto sendInterval := by
  intro never
  obtain ⟨t, later, early, due⟩ := oversleeps.due (reachable_queue reached).timestamps
  have slept := reachable_next reached (.waitTime now rto sendInterval) clock
  have send : (config.next zlib (.waitTime now rto sendInterval)).sender.dueSend t rto sendInterval = true := by
    rw [(reachable_nested slept).dueSend_iff (reachable_queue slept).timestamps]
    exact due
  have emits : ∀ mtu, ((config.next zlib (.waitTime now rto sendInterval)).sender.tick zlib t rto sendInterval
      mtu config.fragmenter).sending.isSome = true := by
    intro mtu
    apply SspSender.tick_emits
    exact .inr ⟨send, due_send_carries slept t rto sendInterval send⟩
  obtain ⟨mtu, out⟩ := SspSender.tick_out zlib _ t rto sendInterval _ emits
  exact out (never _ .asleep t mtu later early (Nat.le_of_lt later))

theorem neverOversleeps_of_not_oversleeps (reached : (senderMachine zlib start sendMindelay).Reachable config)
    (clock : config.clock ≤ now) (soundly : ¬config.sender.Oversleeps now rto sendInterval) :
    NeverOversleeps zlib config now rto sendInterval := by
  have slept := reachable_next reached (.waitTime now rto sendInterval) clock
  have settled := config.sender.computeTimers_settled now rto sendInterval
  have beforeAck : ∀ t, now < t → t < now + (config.sender.waitTime now rto sendInterval).1 →
      ¬(config.sender.computeTimers now rto sendInterval).2.outlook.AckDue sendInterval t := by
    intro t later early due
    have deadline := ((config.sender.lt_waitTime_iff rto sendInterval (Nat.le_of_lt later)).mp early).1
    by_cases closing : (config.sender.computeTimers now rto sendInterval).2.outlook.closing
    · have passed := due.1 closing
      rw [← settled.closed closing] at passed
      exact Nat.not_lt_of_le passed deadline
    · exact Nat.not_lt_of_le (due.2 closing) deadline
  have beforeSend : ∀ t, now < t → t < now + (config.sender.waitTime now rto sendInterval).1 →
      ¬(config.sender.computeTimers now rto sendInterval).2.outlook.SendDue rto sendInterval t := by
    intro t later early due
    exact soundly (SspSender.oversleeps_of_due (reachable_queue reached).timestamps later early due)
  intro awake dozing t mtu later early _
  obtain ⟨-, -, silent⟩ := dozing_quiet slept settled beforeAck beforeSend dozing
  obtain ⟨noSend, noAck⟩ := silent t later early
  rw [awake.sender.tick_quiet zlib t rto sendInterval mtu awake.fragmenter noSend noAck]
  rfl

end SenderConfig

open SenderConfig

/-- A sleep for `wait_time` goes past a tick that would send in exactly one kind of state: one in which the
    retry that is planned for the newest state comes after the first retry from the oldest. -/
theorem neverOversleeps_iff (zlib : Zlib) (start sendMindelay : Nat) (config : SenderConfig)
    (reached : (senderMachine zlib start sendMindelay).Reachable config) (now lastRto lastInterval mtu : Nat)
    (allowed : config.allowed (.tick now lastRto lastInterval mtu)) (rto sendInterval : Nat) :
    NeverOversleeps zlib (config.tick zlib now lastRto lastInterval mtu) now rto sendInterval ↔
      ¬(config.tick zlib now lastRto lastInterval mtu).sender.Oversleeps now rto sendInterval := by
  have ticked : (senderMachine zlib start sendMindelay).Reachable
      (config.tick zlib now lastRto lastInterval mtu) := reachable_next reached _ allowed
  constructor
  · intro never oversleeps
    exact not_neverOversleeps_of_oversleeps ticked (Nat.le_refl now) oversleeps never
  · exact neverOversleeps_of_not_oversleeps ticked (Nat.le_refl now)

def firstKey : List SenderAction := [.pushBytes [97], .tick 10 120 20 500]

theorem neverOversleeps_first_key :
    let config := firstKey.foldl (senderMachine sampleZlib 0 1).next (start 0 1)
    ((config.tick sampleZlib 20 120 20 500).sender.waitTime 20 120 20).1 = 220 ∧
      NeverOversleeps sampleZlib (config.tick sampleZlib 20 120 20 500) 20 120 20 := by
  intro config
  refine ⟨by decide +kernel, (neverOversleeps_iff sampleZlib 0 1 config
    ⟨firstKey, Machine.Run.start.follow (by decide +kernel)⟩ 20 120 20 500 (by decide +kernel) 120 20).mpr ?_⟩
  exact fun oversleeps => absurd oversleeps.newest (by decide +kernel)

def unansweredKeys : List SenderAction :=
  [.pushBytes [97], .tick 10 120 20 500, .tick 20 120 20 500, .pushBytes [98], .tick 39 120 20 500,
    .tick 40 120 20 500]

/-- The tick at 240 retries, and the sleep after it is one of 220 ms; but a tick at 260 retries again. -/
theorem retried_keys_oversleep :
    let config := unansweredKeys.foldl (senderMachine sampleZlib 0 1).next (start 0 1)
    (senderMachine sampleZlib 0 1).Reachable config ∧ config.allowed (.tick 240 120 20 500) ∧
      ((config.tick sampleZlib 240 120 20 500).sender.waitTime 240 120 20).1 = 220 ∧
      ¬NeverOversleeps sampleZlib (config.tick sampleZlib 240 120 20 500) 240 120 20 := by
  intro config
  refine ⟨⟨unansweredKeys, Machine.Run.start.follow (by decide +kernel)⟩, by decide +kernel,
    by decide +kernel, fun never => ?_⟩
  have quiet := never _ .asleep 260 500 (by decide) (by decide +kernel) (by decide +kernel)
  exact absurd quiet (by decide +kernel)

end MoshModel
