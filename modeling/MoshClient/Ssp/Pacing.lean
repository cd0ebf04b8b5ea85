import MoshClient.Ssp.DueTicks

namespace MoshModel

open Transition SenderConfig

/-- A sender with two facts of its past: when it last emitted, and the timer passes since then that
    found a data ack pending. -/
structure PacedConfig where
  config : SenderConfig
  emitted : Option Nat
  awaiting : List Nat

namespace PacedConfig

def start (now sendMindelay : Nat) : PacedConfig :=
  { config := SenderConfig.start now sendMindelay, emitted := none, awaiting := [] }

/-- The intervals are a session's, the acknowledged number is only raised, and `make_fragments` succeeds. -/
def allowed (zlib : Zlib) (paced : PacedConfig) (action : SenderAction) : Prop :=
  paced.config.allowed action ∧ action.InSession ∧
    match action with
    | .setAckNum ack => paced.config.sender.ackNum ≤ ack
    | .tick now rto sendInterval mtu =>
      ∀ sending ∈ (paced.config.sender.tick zlib now rto sendInterval mtu paced.config.fragmenter).sending,
        sending.fragments ≠ []
    | _ => True

instance (zlib : Zlib) (paced : PacedConfig) (action : SenderAction) : Decidable (paced.allowed zlib action) :=
  match action with
  | .setAckNum _ => inferInstanceAs (Decidable (_ ∧ _ ∧ _))
  | .tick now rto sendInterval mtu =>
    have : Decidable (∀ sending ∈ (paced.config.sender.tick zlib now rto sendInterval mtu
        paced.config.fragmenter).sending, sending.fragments ≠ []) :=
      match (paced.config.sender.tick zlib now rto sendInterval mtu paced.config.fragmenter).sending with
      | none => .isTrue fun _ member => by cases member
      | some sending => decidable_of_iff (sending.fragments ≠ []) (by simp)
    inferInstanceAs (Decidable (_ ∧ _ ∧ _))
  | .pushBytes _ | .pushResize _ _ | .startShutdown _ | .acknowledge _ | .setDataAck | .remoteHeard _
  | .waitTime _ _ _ => inferInstanceAs (Decidable (_ ∧ _ ∧ True))

def awaitingAt (paced : PacedConfig) (now : Nat) : List Nat :=
  if paced.config.sender.pendingDataAck then paced.awaiting ++ [now] else paced.awaiting

def next (zlib : Zlib) (paced : PacedConfig) (action : SenderAction) : PacedConfig :=
  let config := paced.config.next zlib action
  match action with
  | .waitTime now _ _ => { paced with config := config, awaiting := paced.awaitingAt now }
  | .tick now rto sendInterval mtu =>
    if (paced.config.sender.tick zlib now rto sendInterval mtu paced.config.fragmenter).sending.isSome then
      { config := config, emitted := some now, awaiting := [] }
    else { paced with config := config, awaiting := paced.awaitingAt now }
  | _ => { paced with config := config }

theorem next_config (zlib : Zlib) (paced : PacedConfig) (action : SenderAction) :
    (paced.next zlib action).config = paced.config.next zlib action := by
  cases action with
  | tick now rto sendInterval mtu =>
    simp only [PacedConfig.next]
    split <;> rfl
  | _ => rfl

end PacedConfig

def pacedMachine (zlib : Zlib) (now sendMindelay : Nat) : Machine PacedConfig SenderAction where
  init := PacedConfig.start now sendMindelay
  allowed := PacedConfig.allowed zlib
  next := PacedConfig.next zlib

instance (zlib : Zlib) (now sendMindelay : Nat) (paced : PacedConfig) (action : SenderAction) :
    Decidable ((pacedMachine zlib now sendMindelay).allowed paced action) :=
  inferInstanceAs (Decidable (paced.allowed zlib action))

namespace SspSender

variable {S : Type}

/-- The timers of a sender that last emitted at `base`, with the timer passes that found a data ack
    pending since. -/
structure Timely (base : Nat) (awaiting : List Nat) (sender : SspSender S) : Prop where
  stamped : sender.queue.back.timestamp = base
  early : base + ackDelayMs ≤ sender.nextAckTime ∨ sender.Closing
  late : sender.nextAckTime ≤ base + ackIntervalMs
  hurried : ∀ t ∈ awaiting, sender.nextAckTime ≤ t + ackDelayMs ∨ sender.Closing

variable {base : Nat} {awaiting : List Nat} {sender : SspSender S}

theorem Timely.of_fields (timely : Timely base awaiting sender) {other : SspSender S}
    (back : other.queue.back.timestamp = sender.queue.back.timestamp)
    (nextAck : other.nextAckTime = sender.nextAckTime) (closing : sender.Closing → other.Closing) :
    Timely base awaiting other :=
  ⟨back.trans timely.stamped, nextAck ▸ timely.early.imp id closing, nextAck ▸ timely.late,
    fun t passed => nextAck ▸ (timely.hurried t passed).imp id closing⟩

theorem Timely.pass [DecidableEq S] (timely : Timely base awaiting sender) (now rto sendInterval : Nat)
    (forward : base ≤ now) (short : sendInterval ≤ ackIntervalMs) :
    Timely base (if sender.pendingDataAck then awaiting ++ [now] else awaiting)
      (sender.computeTimers now rto sendInterval).2 := by
  obtain ⟨-, closing, going⟩ := sender.computeTimers_deadline now rto sendInterval
  have lower := sender.le_hurriedAck now
  have upper := sender.hurriedAck_le now
  have same : (sender.computeTimers now rto sendInterval).2.Closing ↔ sender.Closing := Iff.rfl
  have stamped := timely.stamped
  have late := timely.late
  by_cases shut : sender.Closing
  · refine ⟨stamped, .inr (same.mpr shut), ?_, fun t _ => .inr (same.mpr shut)⟩
    rw [closing shut]
    omega
  · have early := timely.early.resolve_right shut
    refine ⟨stamped, .inl ?_, ?_, fun t passed => .inl ?_⟩
    · rw [going shut]
      omega
    · rw [going shut]
      omega
    · rw [going shut]
      have old : ∀ t ∈ awaiting, sender.hurriedAck now ≤ t + ackDelayMs := fun t passed =>
        Nat.le_trans upper ((timely.hurried t passed).resolve_right shut)
      split at passed
      · rename_i pending
        rcases History.mem_snoc.mp passed with before | rfl
        · exact old t before
        · exact sender.hurriedAck_prompt _ pending
      · exact old t passed

theorem prepared_timers [SspSentState S] (sender : SspSender S) (now rto : Nat) :
    (sender.prepared now rto).nextAckTime = sender.nextAckTime ∧
      (sender.prepared now rto).pendingDataAck = sender.pendingDataAck := by
  unfold prepared rationalizeStates
  split <;> exact ⟨rfl, rfl⟩

theorem Timely.prepared [SspSentState S] (timely : Timely base awaiting sender) (now rto : Nat) :
    Timely base awaiting (sender.prepared now rto) := by
  have back := congrArg Prod.fst (sender.prepared_back now rto)
  obtain ⟨shutdown, acked⟩ := sender.prepared_fields now rto
  refine timely.of_fields back (sender.prepared_timers now rto).1 fun closing => ?_
  unfold Closing
  rw [shutdown, acked]
  exact closing

theorem Timely.emitted {now : Nat} (stamped : sender.queue.back.timestamp = now)
    (nextAck : sender.nextAckTime = now + ackIntervalMs) : Timely now [] sender := by
  refine ⟨stamped, .inl ?_, Nat.le_of_eq nextAck, fun t passed => by cases passed⟩
  simp only [nextAck, ackDelayMs, ackIntervalMs]
  omega

end SspSender

namespace PacedConfig

variable {zlib : Zlib} {start sendMindelay : Nat} {paced : PacedConfig}

def Timely (start : Nat) (paced : PacedConfig) : Prop :=
  SspSender.Timely (paced.emitted.getD start) paced.awaiting paced.config.sender

theorem back_past {config : SenderConfig} (reached : (senderMachine zlib start sendMindelay).Reachable config) :
    config.sender.queue.back.timestamp ≤ config.clock :=
  (reachable_stamped reached).past _ (List.mem_map_of_mem (SentQueue.back_mem _))

theorem next_timely (reached : (senderMachine zlib start sendMindelay).Reachable paced.config)
    (timely : paced.Timely start) (action : SenderAction) (allowed : paced.allowed zlib action) :
    (paced.next zlib action).Timely start := by
  obtain ⟨legal, inSession, raised⟩ := allowed
  have past := back_past reached
  rw [timely.stamped] at past
  cases action with
  | pushBytes bytes => exact timely.of_fields rfl rfl id
  | pushResize width height => exact timely.of_fields rfl rfl id
  | setDataAck => exact timely.of_fields rfl rfl id
  | remoteHeard ts => exact timely.of_fields rfl rfl id
  | startShutdown now =>
    by_cases shutting : paced.config.sender.shutdownInProgress = true
    · have same : paced.config.sender.startShutdown now = paced.config.sender := if_pos shutting
      refine timely.of_fields ?_ ?_ ?_ <;> simp only [PacedConfig.next, SenderConfig.next, same, imp_self]
    · have shut : paced.config.sender.startShutdown now =
          { paced.config.sender with shutdownStart := some now, shutdownInProgress := true } :=
        if_neg shutting
      refine timely.of_fields ?_ ?_ fun _ => .inl ?_ <;> simp only [PacedConfig.next, SenderConfig.next, shut]
  | acknowledge ack =>
    have back := paced.config.sender.queue.processAcknowledgmentThrough_back ack
      (reachable_queue reached).newest
    exact timely.of_fields (congrArg _ back) rfl id
  | setAckNum ack =>
    refine timely.of_fields rfl rfl (Or.imp id fun last => ?_)
    have top : ack ≤ shutdownNum := UInt64.le_iff_toNat_le.mpr (Nat.le_of_lt_succ ack.toNat_lt)
    exact UInt64.le_antisymm top (last ▸ raised)
  | waitTime now rto sendInterval =>
    obtain ⟨-, -, -, upper⟩ := inSession
    exact timely.pass now rto sendInterval (Nat.le_trans past legal) (Nat.le_trans upper (by decide))
  | tick now rto sendInterval mtu =>
    obtain ⟨-, -, -, upper⟩ := inSession
    rcases tick_outcome reached now rto sendInterval mtu with ⟨-, -, quiet⟩ | ⟨sending, sent, emitted⟩
    · have passed := (timely.prepared now rto).pass now rto sendInterval
        (Nat.le_trans past legal.1) (Nat.le_trans upper (by decide))
      rw [(paced.config.sender.prepared_timers now rto).2] at passed
      unfold Timely PacedConfig.next SenderConfig.next SenderConfig.tick
      simp only [quiet]
      exact passed
    · unfold Timely PacedConfig.next SenderConfig.next SenderConfig.tick
      simp only [sent]
      exact SspSender.Timely.emitted emitted.stamped emitted.nextAck

theorem reachable_timely (reached : (pacedMachine zlib start sendMindelay).Reachable paced) :
    (senderMachine zlib start sendMindelay).Reachable paced.config ∧ paced.Timely start := by
  refine reached.invariant (motive := fun paced =>
    (senderMachine zlib start sendMindelay).Reachable paced.config ∧ paced.Timely start) ?_ ?_
  · refine ⟨Machine.Reachable.start _, rfl, .inl ?_, Nat.le_refl _, fun t passed => by cases passed⟩
    exact Nat.add_le_add_left (show ackDelayMs ≤ ackIntervalMs by decide) start
  · rintro paced action - ⟨reached, timely⟩ allowed
    refine ⟨?_, next_timely reached timely action allowed⟩
    rw [show (pacedMachine zlib start sendMindelay).next paced action = paced.next zlib action from rfl,
      paced.next_config zlib action]
    exact reached.step allowed.1

theorem emission_spaced (timely : paced.Timely start) (now rto sendInterval mtu : Nat)
    (emits : (paced.config.sender.tick zlib now rto sendInterval mtu
      paced.config.fragmenter).sending.isSome = true) :
    paced.emitted.getD start + min sendInterval ackDelayMs ≤ now := by
  have prepared := timely.prepared now rto
  have stamped := prepared.stamped
  obtain ⟨deadline, closing, going⟩ :=
    (paced.config.sender.prepared now rto).computeTimers_deadline now rto sendInterval
  rcases SspSender.due_of_emits emits with send | ack
  · obtain ⟨t, scheduled, passed⟩ := (Option.any_eq_true _ _).mp send
    have later := (paced.config.sender.prepared now rto).computeTimers_nextSend now rto sendInterval t scheduled
    have := of_decide_eq_true passed
    omega
  · obtain ⟨t, scheduled, passed⟩ := (Option.any_eq_true _ _).mp ack
    obtain rfl := Option.some.inj (deadline.symm.trans scheduled)
    have reachedNow := of_decide_eq_true passed
    by_cases shut : (paced.config.sender.prepared now rto).Closing
    · rw [closing shut] at reachedNow
      omega
    · have early := prepared.early.resolve_right shut
      have lower := (paced.config.sender.prepared now rto).le_hurriedAck now
      rw [going shut] at reachedNow
      simp only [ackDelayMs] at *
      omega

theorem emits_of_deadline (reached : (senderMachine zlib start sendMindelay).Reachable paced.config)
    (now rto sendInterval mtu : Nat)
    (passed : (paced.config.sender.timers now rto sendInterval).2.nextAckTime ≤ now) :
    ∃ sending, (paced.config.sender.tick zlib now rto sendInterval mtu
        paced.config.fragmenter).sending = some sending ∧
      sending.call.inst.ackNum = paced.config.sender.ackNum := by
  rcases tick_outcome reached now rto sendInterval mtu with ⟨-, noAck, -⟩ | ⟨sending, sent, emitted⟩
  · have late := (Option.any_eq_false _ _).mp noAck _
      ((paced.config.sender.prepared now rto).computeTimers_deadline now rto sendInterval).1
    exact absurd passed (of_decide_eq_false late)
  · exact ⟨sending, sent, emitted.carried⟩

end PacedConfig

open PacedConfig

/-- The pace of a sender: emissions stay apart, silence lasts no longer than the ack interval, and a data
    ack found pending waits no longer than the ack delay. -/
theorem sender_pacing (zlib : Zlib) (start sendMindelay : Nat) (paced : PacedConfig)
    (reached : (pacedMachine zlib start sendMindelay).Reachable paced) (now rto sendInterval mtu : Nat)
    (allowed : paced.allowed zlib (.tick now rto sendInterval mtu)) :
    let ticked := paced.config.sender.tick zlib now rto sendInterval mtu paced.config.fragmenter
    (∀ earlier, paced.emitted = some earlier → ticked.sending.isSome = true →
        min sendInterval ackDelayMs ≤ now - earlier) ∧
      (paced.emitted.getD start + ackIntervalMs ≤ now → ticked.sending.isSome = true) ∧
      ∀ t ∈ paced.awaiting, paced.config.sender.shutdownInProgress = false →
        paced.config.sender.ackNum ≠ shutdownNum → t + ackDelayMs ≤ now →
          ∃ sending, ticked.sending = some sending ∧
            sending.call.inst.ackNum = paced.config.sender.ackNum := by
  obtain ⟨config, timely⟩ := reachable_timely reached
  obtain ⟨⟨forward, -⟩, ⟨-, -, -, upper⟩, -⟩ := allowed
  have past := back_past config
  rw [timely.stamped] at past
  have passed := (timely.prepared now rto).pass now rto sendInterval (Nat.le_trans past forward)
    (Nat.le_trans upper (by decide))
  refine ⟨fun earlier last emits => ?_, fun silent => ?_, fun t found going heard waited => ?_⟩
  · have spaced := emission_spaced timely now rto sendInterval mtu emits
    rw [last, Option.getD_some] at spaced
    omega
  · obtain ⟨sending, sent, -⟩ := emits_of_deadline config now rto sendInterval mtu
      (Nat.le_trans passed.late silent)
    exact Option.isSome_of_mem sent
  · refine emits_of_deadline config now rto sendInterval mtu (Nat.le_trans ?_ waited)
    have noted : t ∈ if (paced.config.sender.prepared now rto).pendingDataAck
        then paced.awaiting ++ [now] else paced.awaiting := by
      split
      · exact List.mem_append_left _ found
      · exact found
    refine (passed.hurried t noted).resolve_right ?_
    obtain ⟨shutdown, acked⟩ := paced.config.sender.prepared_fields now rto
    rintro (shut | last)
    · rw [show paced.config.sender.shutdownInProgress = true from shutdown.symm.trans shut] at going
      cases going
    · exact heard (acked.symm.trans last)

def answeredKey : List SenderAction :=
  [.pushBytes [97], .tick 0 50 20 500, .tick 20 50 20 500, .acknowledge 1, .setAckNum 1, .setDataAck,
    .waitTime 60 50 20]

theorem sender_pacing_answered :
    let paced := answeredKey.foldl (pacedMachine sampleZlib 0 1).next (PacedConfig.start 0 1)
    ∃ sending, (paced.config.sender.tick sampleZlib 160 50 20 500 paced.config.fragmenter).sending =
        some sending ∧ sending.call.inst.ackNum = 1 := by
  intro paced
  have pace := sender_pacing sampleZlib 0 1 paced
    ⟨answeredKey, Machine.Run.start.follow (by decide +kernel)⟩ 160 50 20 500 (by decide +kernel)
  exact pace.2.2 60 (by decide +kernel) (by decide +kernel) (by decide +kernel) (by decide)

end MoshModel
