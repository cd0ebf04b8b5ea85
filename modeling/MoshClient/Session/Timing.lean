import MoshClient.Crypto.Opener

namespace MoshModel

def tsFreshMs : Nat := 1000
def rttMaxSample : UInt64 := 5000

def noTimestamp : UInt16 := 0xFFFF

def timestamp16 (now : Nat) : UInt16 :=
  let ts := UInt16.ofNat (now % 65536)
  if ts = noTimestamp then 0 else ts

/-- The arithmetic on `f64` that a sample goes through. -/
structure Smoothing (F : Type) where
  ofMs : UInt64 → F
  half : F → F
  deviation : F → F → F → F
  mean : F → F → F
  biased : F → Nat

structure Timing (F : Type) where
  expectedReceiverSeq : UInt64
  savedTimestamp : Option (UInt16 × Nat)
  srtt : F
  rttvar : F
  rttHit : Bool
  lastHeardMs : Nat
  rttMsBiased : Nat
deriving DecidableEq

def rttSample (header : PacketHeader) (sampled : Nat) : Option UInt64 :=
  if header.timestampReply ≠ noTimestamp then
    let sample := (timestamp16 sampled - header.timestampReply).toUInt64
    if sample < rttMaxSample then some sample else none
  else none

namespace Timing

variable {F : Type}

def start (smoothing : Smoothing F) : Timing F :=
  { expectedReceiverSeq := 0, savedTimestamp := none, srtt := smoothing.ofMs 1000,
    rttvar := smoothing.ofMs 500, rttHit := false, lastHeardMs := 0, rttMsBiased := 0 }

def smooth (smoothing : Smoothing F) (timing : Timing F) (sample : UInt64) : Timing F :=
  let r := smoothing.ofMs sample
  let smoothed :=
    if !timing.rttHit then { timing with srtt := r, rttvar := smoothing.half r, rttHit := true }
    else { timing with rttvar := smoothing.deviation timing.rttvar timing.srtt r
                       srtt := smoothing.mean timing.srtt r }
  { smoothed with rttMsBiased := smoothing.biased smoothed.srtt }

/-- The seq gate of `handle_datagram`, arrived at `now`; the clock is read once more for a sample. -/
def gate (smoothing : Smoothing F) (timing : Timing F) (seq : UInt64) (header : PacketHeader)
    (now sampled : Nat) : Timing F :=
  if timing.expectedReceiverSeq ≤ seq then
    let heard := { timing with
      expectedReceiverSeq := seq + 1
      lastHeardMs := now
      savedTimestamp := if header.timestamp ≠ noTimestamp then some (header.timestamp, now)
        else timing.savedTimestamp }
    match rttSample header sampled with
    | some sample => heard.smooth smoothing sample
    | none => heard
  else timing

/-- The reply of `send_fragment`: the saved timestamp, while it is fresh and only once. -/
def reply (timing : Timing F) (now : Nat) : Option UInt16 × Timing F :=
  match timing.savedTimestamp with
  | some (ts, receivedAt) =>
    if now - receivedAt < tsFreshMs then
      (some (ts + UInt16.ofNat (now - receivedAt)), { timing with savedTimestamp := none })
    else (none, timing)
  | none => (none, timing)

end Timing

theorem timestamp16_toNat (now : Nat) :
    (timestamp16 now).toNat = if now % 65536 = 65535 then 0 else now % 65536 := by
  have bound : now % 65536 < 65536 := Nat.mod_lt _ (by decide)
  have value : (UInt16.ofNat (now % 65536)).toNat = now % 65536 := by
    rw [UInt16.toNat_ofNat']
    omega
  have reserved : UInt16.ofNat (now % 65536) = noTimestamp ↔ now % 65536 = 65535 := by
    rw [← UInt16.toNat_inj, value]
    rfl
  unfold timestamp16
  simp only [reserved]
  split
  · rfl
  · exact value

theorem timestamp16_ne (now : Nat) : timestamp16 now ≠ noTimestamp := by
  intro same
  have value := timestamp16_toNat now
  rw [same, show noTimestamp.toNat = 65535 from rfl] at value
  split at value <;> omega

def carryBit (now : Nat) : Nat := if now % 65536 = 65535 then 1 else 0

theorem timestamp16_mod (now : Nat) : (timestamp16 now).toNat = (now + carryBit now) % 65536 := by
  rw [timestamp16_toNat]
  unfold carryBit
  split <;> omega

theorem carryBit_le (now : Nat) : carryBit now ≤ 1 := by
  unfold carryBit
  split <;> decide

theorem rttSample_eq_some {header : PacketHeader} {sampled : Nat} {sample : UInt64} :
    rttSample header sampled = some sample ↔ header.timestampReply ≠ noTimestamp ∧
      sample = (timestamp16 sampled - header.timestampReply).toUInt64 ∧ sample < rttMaxSample := by
  unfold rttSample
  by_cases given : header.timestampReply ≠ noTimestamp
  · rw [if_pos given]
    dsimp only
    split
    · rename_i small
      simp only [Option.some.injEq, given, ne_eq, not_false_eq_true, true_and]
      constructor
      · rintro rfl
        exact ⟨rfl, small⟩
      · exact fun found => found.1.symm
    · rename_i large
      simp only [given, ne_eq, not_false_eq_true, true_and, reduceCtorEq, false_iff, not_and]
      rintro rfl
      exact large
  · simp [given]

theorem sample_toNat (sampled : Nat) (echo : UInt16) :
    (timestamp16 sampled - echo).toUInt64.toNat = (sampled + carryBit sampled + (65536 - echo.toNat)) % 65536 := by
  have bound := echo.toNat_lt
  rw [UInt16.toNat_toUInt64, UInt16.toNat_sub, timestamp16_mod]
  omega

theorem echo_toNat (stamped held : Nat) :
    (timestamp16 stamped + UInt16.ofNat held).toNat = (stamped + carryBit stamped + held) % 65536 := by
  rw [UInt16.toNat_add, timestamp16_mod, UInt16.toNat_ofNat']
  omega

/-- What the sample is in terms of the round trip: off by the difference of two carries, and past every
    bound where that is below zero. -/
theorem sample_roundTrip (stamped held roundTrip : Nat) (short : roundTrip < 60000) :
    let echo := timestamp16 stamped + UInt16.ofNat held
    let sample := (timestamp16 (stamped + held + roundTrip) - echo).toUInt64.toNat
    sample + carryBit stamped = roundTrip + carryBit (stamped + held + roundTrip) ∨
      (roundTrip = 0 ∧ sample = 65535) := by
  have before := carryBit_le stamped
  have after := carryBit_le (stamped + held + roundTrip)
  have value := sample_toNat (stamped + held + roundTrip) (timestamp16 stamped + UInt16.ofNat held)
  rw [echo_toNat] at value
  dsimp only
  omega

theorem Timing.reply_gate {F : Type} (smoothing : Smoothing F) {timing : Timing F} {seq : UInt64}
    (fresh : timing.expectedReceiverSeq ≤ seq) {header : PacketHeader}
    (stamped : header.timestamp ≠ noTimestamp) (now sampled : Nat) {held : Nat} (short : held < tsFreshMs) :
    ((timing.gate smoothing seq header now sampled).reply (now + held)).1 =
      some (header.timestamp + UInt16.ofNat held) := by
  have saved : (timing.gate smoothing seq header now sampled).savedTimestamp = some (header.timestamp, now) := by
    unfold gate
    rw [if_pos fresh]
    simp only [if_pos stamped]
    split
    · unfold smooth
      dsimp only
      split <;> rfl
    · rfl
  unfold reply
  rw [saved]
  dsimp only
  rw [Nat.add_sub_cancel_left, if_pos short]

/-- A stamp goes out, is saved and echoed by the peer, and comes back around both clocks' wraps: the sample
    taken is the round trip or one beside it, and none below 4999 is lost. -/
theorem rtt_survives_wraparound {F : Type} (smoothing : Smoothing F) (peer : Timing F) (seq : UInt64)
    (fresh : peer.expectedReceiverSeq ≤ seq) (answered ours : UInt16) (stamped received read held roundTrip : Nat)
    (heldShort : held < 1000) (short : roundTrip < 60000) :
    let saved := peer.gate smoothing seq { timestamp := timestamp16 stamped, timestampReply := answered } received read
    let echo := (saved.reply (received + held)).1.getD noTimestamp
    let sample := rttSample { timestamp := ours, timestampReply := echo } (stamped + held + roundTrip)
    echo ≠ noTimestamp →
      (∀ value ∈ sample, value.toNat ≤ roundTrip + 1 ∧ roundTrip ≤ value.toNat + 1) ∧
        (1 ≤ roundTrip → roundTrip < 4999 → sample.isSome = true) := by
  have before := carryBit_le stamped
  have after := carryBit_le (stamped + held + roundTrip)
  have value := sample_roundTrip stamped held roundTrip short
  dsimp only at value ⊢
  rw [peer.reply_gate smoothing fresh (timestamp16_ne stamped) received read heldShort, Option.getD_some]
  intro encoded
  constructor
  · intro sample accepted
    obtain ⟨-, rfl, small⟩ := rttSample_eq_some.mp accepted
    rw [UInt64.lt_iff_toNat_lt, show rttMaxSample.toNat = 5000 from rfl] at small
    dsimp only at small ⊢
    omega
  · intro least most
    apply Option.isSome_iff_exists.mpr
    refine ⟨_, rttSample_eq_some.mpr ⟨encoded, rfl, ?_⟩⟩
    rw [UInt64.lt_iff_toNat_lt, show rttMaxSample.toNat = 5000 from rfl]
    dsimp only
    omega

def wholeMs : Smoothing Nat where
  ofMs := UInt64.toNat
  half r := r / 2
  deviation rttvar srtt r := (3 * rttvar + max (srtt - r) (r - srtt)) / 4
  mean srtt r := (7 * srtt + r) / 8
  biased srtt := srtt + 1

theorem rtt_survives_wraparound_reserved :
    rttSample { timestamp := 0, timestampReply := 500 } (65535 + 500 + 100) = some 99 ∧
      (99 : UInt64).toNat ≤ 100 + 1 ∧ 100 ≤ (99 : UInt64).toNat + 1 := by
  have sampled := (rtt_survives_wraparound wholeMs (Timing.start wholeMs) 3 (by decide) noTimestamp 0 65535 7 7 500 100 (by decide) (by decide) (by decide)).1 99 (by decide)
  exact ⟨by decide, sampled⟩

end MoshModel
