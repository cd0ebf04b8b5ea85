import MoshClient.Fragment.Slicing
import MoshClient.Ssp.Sender

namespace MoshModel

def Fragmenter.lastAckSent (fragmenter : Fragmenter) : Option UInt64 :=
  fragmenter.lastHeader.map FragmentHeader.ackNum

def SspSender.counterpartyShutdownAcknowledged {S : Type} (_ : SspSender S) (fragmenter : Fragmenter) : Bool :=
  fragmenter.lastAckSent = some shutdownNum

def Sending.framed (sending : Sending) : Bool := sending.fragments ≠ []

/-- The ack of the last call that returned `Ok`. -/
def framedAck (sendings : List Sending) : Option UInt64 :=
  (sendings.filter Sending.framed).getLast?.map fun sending => sending.call.inst.ackNum

open Fragmenter

/-- A failed call leaves no trace, and the last ack reported is the last one framed. -/
structure ReportsFramed (zlib : Zlib) (calls : List FragmentCall) : Prop where
  kept : ∀ before call after, calls = before ++ call :: after → ∀ error fragmenter,
    (sendAll zlib before).2.makeFragments zlib call.inst call.mtu = (.error error, fragmenter) →
      fragmenter = (sendAll zlib before).2
  reported : ∀ before after, calls = before ++ after →
    (sendAll zlib before).2.lastAckSent = framedAck (sendAll zlib before).1
  shutdown : ∀ before after, calls = before ++ after → ∀ (S : Type) (sender : SspSender S),
    sender.counterpartyShutdownAcknowledged (sendAll zlib before).2 = true →
      ∃ sending ∈ (sendAll zlib before).1, sending.framed = true ∧ sending.call.inst.ackNum = shutdownNum

def FragmentCall.oversize (zlib : Zlib) (call : FragmentCall) : Bool :=
  32768 < (zlibCompress zlib call.inst.encode).length ⌈/⌉ (call.mtu - fragHeaderLen)

/-- Each call too large to number repeats the header and the MTU of the call before it. -/
def OversizeRepeats (zlib : Zlib) (calls : List FragmentCall) : Prop :=
  ∀ before call after, calls = before ++ call :: after → call.recorded = true → call.oversize zlib = true →
    ∃ earlier ∈ (before.filter FragmentCall.recorded).getLast?,
      earlier.inst.header = call.inst.header ∧ earlier.mtu = call.mtu

namespace Fragmenter

theorem sendAll_memory (zlib : Zlib) (calls : List FragmentCall) :
    (sendAll zlib calls).2.lastHeader =
        ((calls.filter FragmentCall.recorded).getLast?.map fun call => call.inst.header) ∧
      ∀ call ∈ (calls.filter FragmentCall.recorded).getLast?,
        (sendAll zlib calls).2.lastMtu = call.mtu - fragHeaderLen := by
  induction calls using List.reverseRecOn with
  | nil => exact ⟨rfl, by simp⟩
  | append_singleton calls call ih =>
    rw [sendAll_append, List.filter_append]
    by_cases counted : call.recorded = true
    · rw [List.filter_cons_of_pos counted, List.filter_nil, List.getLast?_concat,
        (send_recorded zlib _ call counted).1]
      exact ⟨rfl, fun last found => by rw [← Option.some.inj found]⟩
    · rw [List.filter_cons_of_neg counted, List.filter_nil, List.append_nil,
        send_refused zlib _ call (Bool.eq_false_iff.mpr counted)]
      exact ih

theorem recorded_room {call : FragmentCall} (counted : call.recorded = true) : fragHeaderLen < call.mtu :=
  of_decide_eq_true counted

theorem makeFragments_recorded (zlib : Zlib) (fragmenter : Fragmenter) {call : FragmentCall}
    (counted : call.recorded = true) :
    (call.oversize zlib = true ∧ fragmenter.makeFragments zlib call.inst call.mtu =
        (.error .indexTooLarge, (fragmenter.send zlib call).2)) ∨
      (call.oversize zlib = false ∧ ∃ fragments, fragments ≠ [] ∧
        fragmenter.makeFragments zlib call.inst call.mtu = (.ok fragments, (fragmenter.send zlib call).2)) := by
  have sliced := fragmenter.makeFragments_sliced zlib call.inst (recorded_room counted)
  have counts : call.oversize zlib = true ↔
      ¬Pieces.count (call.mtu - fragHeaderLen) (zlibCompress zlib call.inst.encode).length ≤ 32768 := by
    rw [← Pieces.ceilDiv_le_iff_count_le (by decide), FragmentCall.oversize, decide_eq_true_eq, Nat.not_le]
  have whole : ∀ fragments, (fragmenter.makeFragments zlib call.inst call.mtu).1 = .ok fragments →
      fragments ≠ [] := fun fragments made => (fragmenter.makeFragments_whole zlib call.inst made).nonempty
  unfold send
  generalize fragmenter.makeFragments zlib call.inst call.mtu = result at *
  obtain ⟨outcome, after⟩ := result
  cases sliced with
  | tooMany beyond =>
    left
    rw [counts]
    simp only [maxFragmentIndex] at beyond
    exact ⟨by omega, rfl⟩
  | @cut fragments inside length _ =>
    right
    rw [Bool.eq_false_iff, ne_eq, counts]
    simp only [maxFragmentIndex] at inside
    exact ⟨by omega, fragments, whole fragments rfl, rfl⟩

theorem send_framed (zlib : Zlib) (fragmenter : Fragmenter) {call : FragmentCall}
    (counted : call.recorded = true) :
    (fragmenter.send zlib call).1.framed = !call.oversize zlib := by
  rcases fragmenter.makeFragments_recorded zlib counted with ⟨large, made⟩ | ⟨small, fragments, nonempty, made⟩
  · rw [send, made, large]
    rfl
  · rw [send, made, small]
    simpa [Sending.framed] using nonempty

theorem send_kept {zlib : Zlib} (fragmenter : Fragmenter) {call : FragmentCall}
    (counted : call.recorded = true) :
    (fragmenter.send zlib call).2 = fragmenter ↔
      fragmenter.lastHeader = some call.inst.header ∧ fragmenter.lastMtu = call.mtu - fragHeaderLen := by
  rw [(send_recorded zlib fragmenter call counted).1]
  constructor
  · intro same
    rw [← same]
    exact ⟨rfl, rfl⟩
  · rintro ⟨header, mtu⟩
    have id : fragmenter.nextId call = fragmenter.nextInstructionId := by
      simp [nextId, header, mtu]
    rw [id, ← header, ← mtu]

theorem sendAll_remembers {zlib : Zlib} {calls : List FragmentCall} {call : FragmentCall}
    (counted : call.recorded = true) :
    ((sendAll zlib calls).2.lastHeader = some call.inst.header ∧
        (sendAll zlib calls).2.lastMtu = call.mtu - fragHeaderLen) ↔
      ∃ earlier ∈ (calls.filter FragmentCall.recorded).getLast?,
        earlier.inst.header = call.inst.header ∧ earlier.mtu = call.mtu := by
  obtain ⟨header, mtu⟩ := sendAll_memory zlib calls
  rw [header]
  cases found : (calls.filter FragmentCall.recorded).getLast? with
  | none => simp
  | some earlier =>
    have room := recorded_room counted
    have earlierRoom := recorded_room (List.of_mem_filter (List.mem_of_getLast? found))
    rw [mtu earlier found]
    simp only [Option.map_some, Option.some.injEq, Option.mem_def, exists_eq_left']
    constructor
    · exact fun ⟨sameHeader, sameMtu⟩ => ⟨sameHeader, by omega⟩
    · exact fun ⟨sameHeader, sameMtu⟩ => ⟨sameHeader, by omega⟩

end Fragmenter

theorem framedAck_append (sendings : List Sending) (sending : Sending) :
    framedAck (sendings ++ [sending]) =
      if sending.framed = true then some sending.call.inst.ackNum else framedAck sendings := by
  unfold framedAck
  rw [List.filter_append]
  split
  · rename_i framed
    rw [List.filter_cons_of_pos framed, List.filter_nil, List.getLast?_concat]
    rfl
  · rename_i unframed
    rw [List.filter_cons_of_neg unframed, List.filter_nil, List.append_nil]

theorem OversizeRepeats.before {zlib : Zlib} {before after : List FragmentCall}
    (repeats : OversizeRepeats zlib (before ++ after)) : OversizeRepeats zlib before := by
  intro earlier call later split counted large
  apply repeats earlier call (later ++ after) _ counted large
  rw [split, List.append_assoc, List.cons_append]

theorem OversizeRepeats.kept {zlib : Zlib} {before after : List FragmentCall} {call : FragmentCall}
    (repeats : OversizeRepeats zlib (before ++ call :: after)) (counted : call.recorded = true)
    (large : call.oversize zlib = true) :
    ((sendAll zlib before).2.send zlib call).2 = (sendAll zlib before).2 := by
  rw [send_kept _ counted, sendAll_remembers counted]
  exact repeats before call after rfl counted large

theorem OversizeRepeats.reported {zlib : Zlib} {calls : List FragmentCall}
    (repeats : OversizeRepeats zlib calls) :
    (sendAll zlib calls).2.lastAckSent = framedAck (sendAll zlib calls).1 := by
  induction calls using List.reverseRecOn with
  | nil => rfl
  | append_singleton calls call ih =>
    have earlier := ih repeats.before
    rw [sendAll_append, framedAck_append, send_call]
    by_cases counted : call.recorded = true
    · rw [send_framed zlib _ counted]
      cases large : call.oversize zlib with
      | true => simpa [repeats.kept counted large] using earlier
      | false =>
        rw [(send_recorded zlib _ call counted).1]
        rfl
    · rw [send_refused zlib _ call (Bool.eq_false_iff.mpr counted)]
      exact earlier

theorem framedAck_framed {sendings : List Sending} {ack : UInt64} (last : framedAck sendings = some ack) :
    ∃ sending ∈ sendings, sending.framed = true ∧ sending.call.inst.ackNum = ack := by
  obtain ⟨sending, found, named⟩ := Option.map_eq_some_iff.mp last
  obtain ⟨member, framed⟩ := List.mem_filter.mp (List.mem_of_getLast? found)
  exact ⟨sending, member, framed, named⟩

/-- The bookkeeping comes before the slicing loop: a call that fails there is remembered all the same,
    and goes unnoticed only where it repeats the call remembered before it. -/
theorem last_ack_framed_iff (zlib : Zlib) (calls : List FragmentCall) :
    ReportsFramed zlib calls ↔ OversizeRepeats zlib calls := by
  constructor
  · intro reports before call after split counted large
    rcases (sendAll zlib before).2.makeFragments_recorded zlib counted with ⟨-, failed⟩ | ⟨small, -⟩
    · have kept := reports.kept before call after split _ _ failed
      rwa [send_kept _ counted, sendAll_remembers counted] at kept
    · rw [large] at small
      cases small
  · intro repeats
    have reported : ∀ before after, calls = before ++ after →
        (sendAll zlib before).2.lastAckSent = framedAck (sendAll zlib before).1 := by
      rintro before after rfl
      exact repeats.before.reported
    constructor
    · rintro before call after rfl error fragmenter failed
      by_cases counted : call.recorded = true
      · rcases (sendAll zlib before).2.makeFragments_recorded zlib counted with ⟨large, made⟩ | ⟨-, _, -, made⟩
        · rw [made] at failed
          cases failed
          exact repeats.kept counted large
        · rw [made] at failed
          cases failed
      · rw [makeFragments_refused zlib _ call.inst (by simpa [FragmentCall.recorded] using counted)] at failed
        cases failed
        rfl
    · exact reported
    · intro before after split S sender acknowledged
      apply framedAck_framed
      rw [← reported before after split]
      exact of_decide_eq_true acknowledged

theorem unframed_acknowledged {zlib : Zlib} {call : FragmentCall} (counted : call.recorded = true)
    (large : call.oversize zlib = true) (last : call.inst.ackNum = shutdownNum) :
    ¬ReportsFramed zlib [call] := by
  intro reports
  have sent : sendAll zlib [call] =
    ([(Fragmenter.default.send zlib call).1], (Fragmenter.default.send zlib call).2) := rfl
  have flagged : (SspSender.new 0 0 0).counterpartyShutdownAcknowledged (sendAll zlib [call]).2 = true := by
    rw [sent, (send_recorded zlib _ call counted).1]
    exact decide_eq_true (congrArg some last)
  obtain ⟨sending, member, framed, -⟩ := reports.shutdown [call] [] rfl Nat _ flagged
  rw [sent] at member
  rw [List.mem_singleton.mp member, send_framed zlib _ counted, large] at framed
  cases framed

def noise (seed : Nat) : Nat → Bytes
  | 0 => []
  | count + 1 => UInt8.ofNat (seed / 65536) :: noise ((1103515245 * seed + 12345) % 2 ^ 31) count

theorem noise_length (seed count : Nat) : (noise seed count).length = count := by
  induction count generalizing seed with
  | zero => rfl
  | succ count ih => rw [noise, List.length_cons, ih]

def unframable : FragmentCall where
  inst := { protocolVersion := 2, oldNum := 0, newNum := 1, ackNum := shutdownNum, throwawayNum := 0,
            diff := noise 1 40000, chaff := [] }
  mtu := 11

theorem last_ack_never_framed :
    ¬∀ zlib : Zlib, zlib.Inverse → ∀ calls : List FragmentCall, ReportsFramed zlib calls := by
  intro claim
  have diff := unframable.inst.fields_le.1
  rw [show unframable.inst.diff.length = 40000 from noise_length 1 40000] at diff
  have large : unframable.oversize sampleZlib = true := by
    unfold FragmentCall.oversize
    rw [sampleZlib_stored (by omega), List.length_cons, decide_eq_true_eq, ← Nat.not_le,
      ceilDiv_le_iff_le_smul (by decide), smul_eq_mul, show unframable.mtu - fragHeaderLen = 1 from rfl]
    omega
  exact unframed_acknowledged rfl large rfl (claim sampleZlib sampleZlib_inverse [unframable])

end MoshModel
