import MoshClient.Fragment.Transport
import MoshClient.Library.BigEndian
import Mathlib.Data.Nat.Bitwise

namespace MoshModel

theorem UInt16.toNat_and_low (flags : UInt16) : (flags &&& 0x7FFF).toNat = flags.toNat % 2 ^ 15 := by
  rw [UInt16.toNat_and]
  exact Nat.and_two_pow_sub_one_eq_mod flags.toNat 15

theorem UInt16.and_high (flags : UInt16) : flags &&& 0x8000 = 0 ↔ flags.toNat < 2 ^ 15 := by
  have bound := flags.toNat_lt
  have bit := Nat.and_two_pow flags.toNat 15
  rw [← UInt16.toNat_inj, UInt16.toNat_and, show (0x8000 : UInt16).toNat = 2 ^ 15 from rfl, bit,
    Nat.testBit_eq_decide_div_mod_eq]
  show (decide (flags.toNat / 2 ^ 15 % 2 = 1)).toNat * 2 ^ 15 = 0 ↔ flags.toNat < 2 ^ 15
  by_cases high : flags.toNat / 2 ^ 15 % 2 = 1
  · simp only [high, decide_true, Bool.toNat_true]
    omega
  · simp only [high, decide_false, Bool.toNat_false]
    omega

namespace Fragment

/-- The ranges of the source's types: a 64-bit id, and an index of 15 bits beside the final bit. -/
structure OnWire (frag : Fragment) : Prop where
  id : frag.id < 2 ^ 64
  num : frag.fragmentNum < 2 ^ 15

def flags (frag : Fragment) : UInt16 :=
  ((if frag.final then 1 else 0 : UInt16) <<< 15) ||| UInt16.ofNat frag.fragmentNum

def tostring (frag : Fragment) : Bytes :=
  BigEndian.encode 8 frag.id ++ BigEndian.encode 2 frag.flags.toNat ++ frag.contents

def parse (bytes : Bytes) : Except FragmentError Fragment :=
  if bytes.length < fragHeaderLen then .error .tooShort
  else
    let flags := UInt16.ofNat (BigEndian.value ((bytes.take 10).drop 8))
    .ok { id := BigEndian.value (bytes.take 8), final := flags &&& 0x8000 ≠ 0,
          fragmentNum := (flags &&& 0x7FFF).toNat, contents := bytes.drop fragHeaderLen }

theorem flags_toNat (frag : Fragment) (small : frag.fragmentNum < 2 ^ 15) :
    frag.flags.toNat = (if frag.final then 2 ^ 15 else 0) + frag.fragmentNum := by
  have num : (UInt16.ofNat frag.fragmentNum).toNat = frag.fragmentNum := by
    rw [UInt16.toNat_ofNat']
    omega
  unfold flags
  cases frag.final with
  | false => simp [num]
  | true =>
    have high : ((1 : UInt16) <<< 15).toNat = 2 ^ 15 * 1 := by decide
    simp only [if_true, UInt16.toNat_or, high, num]
    rw [← Nat.two_pow_add_eq_or_of_lt small, Nat.mul_one]

theorem parse_tostring (frag : Fragment) (onWire : frag.OnWire) : parse frag.tostring = .ok frag := by
  have flags := frag.flags_toNat onWire.num
  have idBytes : (BigEndian.encode 8 frag.id).length = 8 := BigEndian.encode_length _ _
  have flagBytes : (BigEndian.encode 2 frag.flags.toNat).length = 2 := BigEndian.encode_length _ _
  have header : (BigEndian.encode 8 frag.id ++ BigEndian.encode 2 frag.flags.toNat).length = 10 := by
    rw [List.length_append, idBytes, flagBytes]
  have restored : UInt16.ofNat (BigEndian.value (BigEndian.encode 2 frag.flags.toNat)) = frag.flags := by
    rw [BigEndian.value_encode_of_lt frag.flags.toNat_lt, UInt16.ofNat_toNat]
  unfold parse tostring
  rw [if_neg (by rw [List.length_append, header]; simp [fragHeaderLen])]
  rw [List.take_left' header, List.drop_left' idBytes, restored, fragHeaderLen, List.drop_left' header,
    List.append_assoc, List.take_left' idBytes, BigEndian.value_encode_of_lt onWire.id]
  have num := onWire.num
  have high := UInt16.and_high frag.flags
  have finalBit : decide (frag.flags &&& 0x8000 ≠ 0) = frag.final := by
    simp only [ne_eq, high, flags]
    cases frag.final with
    | false => simpa using num
    | true => simp
  have index : (frag.flags &&& 0x7FFF).toNat = frag.fragmentNum := by
    rw [UInt16.toNat_and_low, flags]
    split <;> omega
  simp only [finalBit, index]

theorem tostring_parse {bytes : Bytes} {frag : Fragment} (parsed : parse bytes = .ok frag) :
    frag.tostring = bytes ∧ frag.OnWire := by
  unfold parse at parsed
  split at parsed
  · cases parsed
  · rename_i long
    simp only [fragHeaderLen] at long
    have idLength : (bytes.take 8).length = 8 := by
      rw [List.length_take]
      omega
    have flagLength : ((bytes.take 10).drop 8).length = 2 := by
      rw [List.length_drop, List.length_take]
      omega
    have idBound := BigEndian.value_lt (bytes.take 8)
    have flagBound := BigEndian.value_lt ((bytes.take 10).drop 8)
    have idBytes := BigEndian.encode_value (bytes.take 8)
    have flagBytes := BigEndian.encode_value ((bytes.take 10).drop 8)
    rw [idLength] at idBound idBytes
    rw [flagLength] at flagBound flagBytes
    have flagNat : (UInt16.ofNat (BigEndian.value ((bytes.take 10).drop 8))).toNat =
        BigEndian.value ((bytes.take 10).drop 8) := by
      exact Nat.mod_eq_of_lt flagBound
    rw [← flagNat] at flagBytes
    generalize UInt16.ofNat (BigEndian.value ((bytes.take 10).drop 8)) = flags at *
    cases parsed
    have low := UInt16.toNat_and_low flags
    have small : (flags &&& 0x7FFF).toNat < 2 ^ 15 := by
      rw [low]
      exact Nat.mod_lt _ (by decide)
    have high := UInt16.and_high flags
    have whole := flags.toNat_lt
    refine ⟨?_, idBound, small⟩
    unfold tostring
    rw [flags_toNat _ small]
    dsimp only
    have joined : (if decide (flags &&& 0x8000 ≠ 0) = true then 2 ^ 15 else 0) + (flags &&& 0x7FFF).toNat =
        flags.toNat := by
      rw [low]
      simp only [ne_eq, decide_eq_true_eq, high]
      split <;> omega
    rw [joined, idBytes, flagBytes, fragHeaderLen]
    rw [show bytes.take 8 = (bytes.take 10).take 8 by rw [List.take_take]; rfl, List.take_append_drop,
      List.take_append_drop]

end Fragment

end MoshModel
