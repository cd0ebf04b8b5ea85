import MoshClient.Session.Loop
import MoshClient.Session.Timing
import MoshClient.Fragment.Completion
import MoshClient.Fragment.Framing
import MoshClient.Library.HighWater

namespace MoshModel

/-- The loop with the fields its datagrams pass through. -/
structure WiredLoop (D F : Type) where
  loop : SessionLoop D
  sealer : MoshSealer
  opener : MoshOpener
  assembly : FragmentAssembly
  timing : Timing F

/-- The code outside the loop: the cipher under the session key, the deflate stream, and the arithmetic of
    the estimate. -/
structure WireCode (F : Type) where
  encrypt : Aead
  decrypt : AeadOpen
  zlib : Zlib
  smoothing : Smoothing F

/-- A datagram in, a fragment out, and the steps of the loop that are neither; each with its readings of
    the clock. -/
inductive WireAction where
  | datagram (bytes : Bytes) (addresses : Nat → Address) (now sampled : Nat)
  | send (fragment : Fragment) (now stamped : Nat)
  | inner (action : SessionAction)

namespace WiredLoop

variable {D F : Type}

def start (code : WireCode F) (display : D) (cols rows : Int32) (predictionOn : Bool) : WiredLoop D F :=
  { loop := SessionLoop.start display cols rows predictionOn
    sealer := MoshSealer.new .toServer
    opener := { peerDirection := .toClient }
    assembly := FragmentAssembly.new
    timing := Timing.start code.smoothing }

/-- The datagram goes out where the sealer gives one. -/
def sendFragment (code : WireCode F) (wired : WiredLoop D F) (fragment : Fragment) (now stamped : Nat) :
    Option Bytes × WiredLoop D F :=
  let (outgoingReply, timing) := wired.timing.reply now
  let header : PacketHeader :=
    { timestamp := timestamp16 stamped, timestampReply := outgoingReply.getD noTimestamp }
  match wired.sealer.sealDatagram code.encrypt header fragment.tostring with
  | (.ok datagram, sealer) => (some datagram, { wired with sealer := sealer, timing := timing })
  | (.error _, sealer) =>
    (none, { wired with
      sealer := sealer
      timing := timing
      loop := { wired.loop with fatal := some "mosh: session exhausted its key budget" } })

variable [MoshDisplay D]

def handleDatagram (code : WireCode F) (wired : WiredLoop D F) (addresses : Nat → Address) (bytes : Bytes)
    (now sampled : Nat) : WiredLoop D F :=
  match wired.opener.openDatagram code.decrypt bytes with
  | .error _ => wired
  | .ok (seq, header, payload) =>
    -- replays still decode but never touch timing
    let timed := { wired with timing := wired.timing.gate code.smoothing seq header now sampled }
    match Fragment.parse payload with
    | .error _ => timed
    | .ok fragment =>
      match timed.assembly.addFragment code.zlib fragment with
      | (none, assembly) => { timed with assembly := assembly }
      | (some inst, assembly) =>
        { timed with assembly := assembly, loop := timed.loop.handleInstruction addresses inst now }

def next (code : WireCode F) (wired : WiredLoop D F) : WireAction → WiredLoop D F
  | .datagram bytes addresses now sampled => wired.handleDatagram code addresses bytes now sampled
  | .send fragment now stamped => (wired.sendFragment code fragment now stamped).2
  | .inner action => { wired with loop := wired.loop.next code.zlib action }

end WiredLoop

theorem MoshOpener.openDatagram_seq_le {decrypt : AeadOpen} {opener : MoshOpener} {datagram payload : Bytes}
    {seq : UInt64} {header : PacketHeader}
    (opened : opener.openDatagram decrypt datagram = .ok (seq, header, payload)) : seq ≤ seqMask := by
  unfold openDatagram at opened
  split at opened
  · cases opened
  · dsimp only at opened
    split at opened
    · cases opened
    · split at opened
      · cases opened
      · split at opened
        · cases opened
        · cases opened
          exact Nonce.seq_le_seqMask _

namespace Timing

variable {F : Type}

theorem gate_stale (smoothing : Smoothing F) {timing : Timing F} {seq : UInt64}
    (stale : ¬timing.expectedReceiverSeq ≤ seq) (header : PacketHeader) (now sampled : Nat) :
    timing.gate smoothing seq header now sampled = timing := if_neg stale

theorem gate_expected (smoothing : Smoothing F) {timing : Timing F} {seq : UInt64}
    (fresh : timing.expectedReceiverSeq ≤ seq) (header : PacketHeader) (now sampled : Nat) :
    (timing.gate smoothing seq header now sampled).expectedReceiverSeq = seq + 1 := by
  unfold gate
  rw [if_pos fresh]
  dsimp only
  split
  · unfold smooth
    dsimp only
    split <;> rfl
  · rfl

theorem reply_expected (timing : Timing F) (now : Nat) :
    (timing.reply now).2.expectedReceiverSeq = timing.expectedReceiverSeq := by
  unfold reply
  split
  · split <;> rfl
  · rfl

end Timing

open HighWater

namespace WiredLoop

variable {D F : Type}

/-- The sequence number of a datagram that opens. -/
def seqOf (code : WireCode F) (opener : MoshOpener) : WireAction → Option UInt64
  | .datagram bytes _ _ _ => (opener.openDatagram code.decrypt bytes).toOption.map fun opened => opened.1
  | _ => none

/-- What a datagram that opens carries, where it is a fragment. -/
def fragmentOf (code : WireCode F) (opener : MoshOpener) : WireAction → Option Fragment
  | .datagram bytes _ _ _ => do
    let opened ← (opener.openDatagram code.decrypt bytes).toOption
    (Fragment.parse opened.2.2).toOption
  | _ => none

def view (wired : WiredLoop D F) : MoshOpener × Timing F := (wired.opener, wired.timing)

/-- The step of the opener and the timing, which looks at nothing else. -/
def move (code : WireCode F) (seen : MoshOpener × Timing F) : WireAction → MoshOpener × Timing F
  | .datagram bytes _ now sampled =>
    match seen.1.openDatagram code.decrypt bytes with
    | .error _ => seen
    | .ok (seq, header, _) => (seen.1, seen.2.gate code.smoothing seq header now sampled)
  | .send _ now _ => (seen.1, (seen.2.reply now).2)
  | .inner _ => seen

/-- The gate stands just above the marks seen. -/
def Floor (opener : MoshOpener) (marks : List UInt64) (seen : MoshOpener × Timing F) : Prop :=
  seen.1 = opener ∧ ∀ seq ≤ seqMask, seen.2.expectedReceiverSeq ≤ seq ↔ exceeds marks seq = true

theorem exceeds_snoc (marks : List UInt64) (new seq : UInt64) :
    exceeds (marks ++ [new]) seq = true ↔ exceeds marks seq = true ∧ new < seq := by
  simp [exceeds, List.all_append]

theorem next_above {new : UInt64} (bound : new ≤ seqMask) (seq : UInt64) : new + 1 ≤ seq ↔ new < seq := by
  have mask : seqMask.toNat = 2 ^ 63 - 1 := by decide
  rw [UInt64.le_iff_toNat_le] at bound
  rw [UInt64.le_iff_toNat_le, UInt64.lt_iff_toNat_lt, UInt64.toNat_add, show (1 : UInt64).toNat = 1 from rfl]
  omega

theorem move_marked (code : WireCode F) (opener : MoshOpener) (timing : Timing F) {action : WireAction}
    {new : UInt64} (marked : seqOf code opener action = some new) :
    new ≤ seqMask ∧ ∃ header now sampled,
      move code (opener, timing) action = (opener, timing.gate code.smoothing new header now sampled) := by
  cases action with
  | datagram bytes addresses now sampled =>
    unfold move
    dsimp only
    cases opened : opener.openDatagram code.decrypt bytes with
    | error e =>
      rw [seqOf, opened] at marked
      cases marked
    | ok opened' =>
      obtain ⟨seq, header, payload⟩ := opened'
      rw [seqOf, opened] at marked
      cases marked
      exact ⟨MoshOpener.openDatagram_seq_le opened, header, now, sampled, rfl⟩
  | send fragment now stamped => cases marked
  | inner action => cases marked

theorem move_unmarked (code : WireCode F) (opener : MoshOpener) (timing : Timing F) {action : WireAction}
    (unmarked : seqOf code opener action = none) :
    (move code (opener, timing) action).1 = opener ∧
      (move code (opener, timing) action).2.expectedReceiverSeq = timing.expectedReceiverSeq := by
  cases action with
  | datagram bytes addresses now sampled =>
    unfold move
    dsimp only
    cases opened : opener.openDatagram code.decrypt bytes with
    | error e => exact ⟨rfl, rfl⟩
    | ok opened' =>
      rw [seqOf, opened] at unmarked
      cases unmarked
  | send fragment now stamped => exact ⟨rfl, timing.reply_expected now⟩
  | inner action => exact ⟨rfl, rfl⟩

variable [MoshDisplay D]

theorem next_view (code : WireCode F) (wired : WiredLoop D F) (action : WireAction) :
    (wired.next code action).view = move code wired.view action := by
  cases action with
  | datagram bytes addresses now sampled =>
    unfold next handleDatagram move view
    dsimp only
    cases wired.opener.openDatagram code.decrypt bytes with
    | error e => rfl
    | ok opened =>
      obtain ⟨seq, header, payload⟩ := opened
      dsimp only
      split
      · rfl
      · split <;> rfl
  | send fragment now stamped =>
    unfold next sendFragment move view
    dsimp only
    split <;> rfl
  | inner action => rfl

theorem gated (code : WireCode F) (opener : MoshOpener) :
    Gated (seqOf code opener) (next code : WiredLoop D F → WireAction → WiredLoop D F) view (move code)
      (Floor opener) where
  commutes := next_view code
  unmarked := by
    rintro marks ⟨_, timing⟩ action ⟨rfl, floor⟩ unmarked
    obtain ⟨same, expected⟩ := move_unmarked code _ timing unmarked
    refine ⟨same, fun seq bound => ?_⟩
    rw [expected]
    exact floor seq bound
  above := by
    rintro marks ⟨_, timing⟩ action new ⟨rfl, floor⟩ marked above
    obtain ⟨bound, header, now, sampled, moved⟩ := move_marked code _ timing marked
    rw [moved]
    refine ⟨rfl, fun seq inside => ?_⟩
    rw [Timing.gate_expected _ ((floor new bound).mpr above), next_above bound, exceeds_snoc]
    constructor
    · intro past
      refine ⟨?_, past⟩
      rw [exceeds, List.all_eq_true] at above ⊢
      intro earlier member
      exact decide_eq_true (UInt64.lt_trans (of_decide_eq_true (above earlier member)) past)
    · exact fun past => past.2
  stale := by
    rintro marks ⟨_, timing⟩ action new ⟨rfl, floor⟩ marked below
    obtain ⟨bound, header, now, sampled, moved⟩ := move_marked code _ timing marked
    have stale : ¬timing.expectedReceiverSeq ≤ new := by
      rw [floor new bound, below]
      exact Bool.false_ne_true
    rw [moved, Timing.gate_stale _ stale]
    refine ⟨rfl, rfl, fun seq inside => ?_⟩
    rw [exceeds_snoc, ← floor seq inside]
    constructor
    · exact fun past => ⟨past, UInt64.lt_of_lt_of_le (UInt64.not_le.mp stale) past⟩
    · exact fun past => past.1

theorem next_assembly (code : WireCode F) (wired : WiredLoop D F) (action : WireAction) :
    (wired.next code action).assembly =
      wired.assembly.feed code.zlib (fragmentOf code wired.opener action).toList := by
  cases action with
  | datagram bytes addresses now sampled =>
    unfold next handleDatagram
    rw [fragmentOf]
    dsimp only
    cases wired.opener.openDatagram code.decrypt bytes with
    | error e => rfl
    | ok opened =>
      obtain ⟨seq, header, payload⟩ := opened
      dsimp only
      cases parsed : Fragment.parse payload with
      | error e => simp [parsed, Except.toOption, FragmentAssembly.feed]
      | ok fragment =>
        simp only [Except.toOption, Option.bind_eq_bind, Option.bind_some, parsed, Option.toList_some,
          FragmentAssembly.feed, List.foldl_cons, List.foldl_nil]
        split <;> rename_i answer <;> rw [answer]
  | send fragment now stamped =>
    unfold next sendFragment
    dsimp only
    split <;> rfl
  | inner action => rfl

theorem next_opener (code : WireCode F) (wired : WiredLoop D F) (action : WireAction) :
    (wired.next code action).opener = wired.opener := by
  have moved := congrArg Prod.fst (next_view code wired action)
  rw [show (wired.next code action).opener = (wired.next code action).view.1 from rfl, moved]
  cases marked : seqOf code wired.opener action with
  | none => exact (move_unmarked code wired.opener wired.timing marked).1
  | some new =>
    obtain ⟨-, header, now, sampled, gated⟩ := move_marked code wired.opener wired.timing marked
    rw [view, gated]

theorem foldl_assembly (code : WireCode F) (actions : List WireAction) (wired : WiredLoop D F) :
    (actions.foldl (next code) wired).assembly =
      wired.assembly.feed code.zlib (actions.filterMap (fragmentOf code wired.opener)) := by
  induction actions generalizing wired with
  | nil => rfl
  | cons action actions ih =>
    rw [List.foldl_cons, ih, next_opener, next_assembly, List.filterMap_cons]
    cases fragmentOf code wired.opener action with
    | none => rfl
    | some fragment => rfl

/-- A step never lowers the gate, and a number that came before it leaves all of the timing alone. -/
theorem next_timing (code : WireCode F) {wired : WiredLoop D F} {marks : List UInt64}
    (floor : Floor wired.opener marks wired.view) (action : WireAction) :
    wired.timing.expectedReceiverSeq ≤ (wired.next code action).timing.expectedReceiverSeq ∧
      ∀ seq ∈ marks, seqOf code wired.opener action = some seq →
        (wired.next code action).timing = wired.timing := by
  have moved := congrArg Prod.snd (next_view code wired action)
  rw [show (wired.next code action).timing = (wired.next code action).view.2 from rfl, moved]
  cases marked : seqOf code wired.opener action with
  | none =>
    obtain ⟨-, expected⟩ := move_unmarked code wired.opener wired.timing marked
    exact ⟨UInt64.le_of_eq expected.symm, nofun⟩
  | some new =>
    obtain ⟨bound, header, now, sampled, gated⟩ := move_marked code wired.opener wired.timing marked
    rw [view, gated]
    have reaches := floor.2 new bound
    by_cases fresh : wired.timing.expectedReceiverSeq ≤ new
    · constructor
      · rw [Timing.gate_expected _ fresh]
        exact UInt64.le_trans fresh (UInt64.le_of_lt ((next_above bound (new + 1)).mp (UInt64.le_refl _)))
      · rintro seq member ⟨⟩
        have above := reaches.mp fresh
        rw [exceeds, List.all_eq_true] at above
        exact absurd (of_decide_eq_true (above new member)) (UInt64.lt_irrefl _)
    · rw [Timing.gate_stale _ fresh]
      exact ⟨UInt64.le_refl _, fun _ _ _ => rfl⟩

/-- A run times as it would without its stale datagrams, which still reach the reassembly. -/
theorem replays_never_touch_timing (code : WireCode F) (display : D) (cols rows : Int32) (predictionOn : Bool)
    (actions : List WireAction) :
    let first : WiredLoop D F := start code display cols rows predictionOn
    let run := fun actions : List WireAction => actions.foldl (next code) first
    (run actions).timing = (run (records (seqOf code first.opener) [] actions)).timing ∧
      (∀ before action later, actions = before ++ action :: later →
        (run before).timing.expectedReceiverSeq ≤ (run (before ++ [action])).timing.expectedReceiverSeq ∧
          ∀ earlier ∈ before, ∀ seq, seqOf code first.opener earlier = some seq →
            seqOf code first.opener action = some seq → (run (before ++ [action])).timing = (run before).timing) ∧
      (run actions).assembly =
        first.assembly.feed code.zlib (actions.filterMap (fragmentOf code first.opener)) := by
  intro first run
  have rule := gated (D := D) code first.opener
  have floor : Floor first.opener [] first.view :=
    ⟨rfl, fun seq _ => iff_of_true UInt64.zero_le rfl⟩
  refine ⟨?_, ?_, foldl_assembly code actions first⟩
  · exact congrArg Prod.snd (rule.foldl_records actions [] first first floor rfl)
  · rintro before action later -
    have reached := rule.foldl_invariant before [] first floor
    rw [List.nil_append] at reached
    have opener : (run before).opener = first.opener := reached.1
    rw [← opener] at reached ⊢
    obtain ⟨grows, still⟩ := next_timing code reached action
    have step : run (before ++ [action]) = (run before).next code action := by
      simp only [run, List.foldl_append, List.foldl_cons, List.foldl_nil]
    rw [step]
    refine ⟨grows, fun earlier member seq marked same => still seq ?_ same⟩
    exact List.mem_filterMap.mpr ⟨earlier, member, marked⟩

end WiredLoop

end MoshModel
