import MoshClient.Bootstrap.Connect

namespace MoshModel

open Words

def isKeyChar (c : Char) : Bool := c.isAlphanum || c = '/' || c = '+'

def portNumber (digits : Text) : Nat := Nat.ofDigitChars 10 digits 0

/-- What the two groups hold. -/
structure PortKey (digits key : Text) : Prop where
  nonempty : digits ≠ []
  decimal : ∀ c ∈ digits, c.isDigit = true
  fits : portNumber digits ≤ 65535
  length : key.length = 22
  chars : ∀ c ∈ key, isKeyChar c = true

def spelled (before sign digits between key after : Text) : Text :=
  connectLead ++ (before ++ (sign ++ digits ++ (between ++ (key ++ after))))

/-- The spellings of a line that are read. -/
structure Spelling (before sign digits between key after : Text) : Prop where
  groups : PortKey digits key
  before : Gap isWhitespace before
  signed : sign = [] ∨ sign = ['+']
  apart : between ≠ []
  between : Gap isWhitespace between
  after : Gap isWhitespace after

-- Ports.

theorem le_ofDigitChars (digits : Text) (value : Nat) : value ≤ Nat.ofDigitChars 10 digits value := by
  rw [Nat.ofDigitChars_eq_ofDigitChars_zero]
  have positive : 0 < 10 ^ digits.length := Nat.pow_pos (by decide)
  calc value ≤ 10 ^ digits.length * value := Nat.le_mul_of_pos_left _ positive
    _ ≤ _ := Nat.le_add_right _ _

theorem parseDigits_eq_some (digits : Text) (value : Nat) (port : UInt16) (small : value ≤ 65535) :
    parseDigits value digits = some port ↔ (∀ c ∈ digits, c.isDigit = true) ∧
      Nat.ofDigitChars 10 digits value ≤ 65535 ∧ port.toNat = Nat.ofDigitChars 10 digits value := by
  induction digits generalizing value with
  | nil =>
    have exact : (UInt16.ofNat value).toNat = value := by
      rw [UInt16.toNat_ofNat']
      omega
    simp only [parseDigits, Option.some.injEq, List.not_mem_nil, false_implies, implies_true, true_and,
      Nat.ofDigitChars_nil, small, ← UInt16.toNat_inj, exact]
    exact eq_comm
  | cons c digits ih =>
    have grows := le_ofDigitChars digits (10 * value + (c.toNat - '0'.toNat))
    rw [parseDigits, Nat.ofDigitChars_cons, List.forall_mem_cons, Nat.mul_comm value 10]
    by_cases digit : c.isDigit = true
    · rw [if_pos digit]
      dsimp only
      by_cases fits : 10 * value + (c.toNat - '0'.toNat) ≤ 65535
      · rw [if_pos fits, ih _ fits]
        simp only [digit, true_and]
      · rw [if_neg fits]
        apply iff_of_false nofun
        rintro ⟨-, bound, -⟩
        exact fits (grows.trans bound)
    · rw [if_neg digit]
      simp [digit]

theorem parseU16_eq_some (word : Text) (port : UInt16) :
    parseU16 word = some port ↔ ∃ sign digits, word = sign ++ digits ∧ (sign = [] ∨ sign = ['+']) ∧ digits ≠ [] ∧
      (∀ c ∈ digits, c.isDigit = true) ∧ portNumber digits ≤ 65535 ∧ port.toNat = portNumber digits := by
  constructor
  · intro parsed
    unfold parseU16 at parsed
    split at parsed
    · cases parsed
    · cases parsed
    · next digits signed =>
      have read := (parseDigits_eq_some digits 0 port (by decide)).mp parsed
      exact ⟨['+'], digits, rfl, .inr rfl, fun empty => signed (by rw [empty]), read⟩
    · next nonempty _ _ =>
      have read := (parseDigits_eq_some word 0 port (by decide)).mp parsed
      exact ⟨[], word, rfl, .inl rfl, nonempty, read⟩
  · rintro ⟨sign, digits, rfl, signed, nonempty, all, fits, value⟩
    have read := (parseDigits_eq_some digits 0 port (by decide)).mpr ⟨all, fits, value⟩
    obtain ⟨c, others, rfl⟩ := List.exists_cons_of_ne_nil nonempty
    have first := all c (List.mem_cons_self ..)
    apply signed.elim
    · rintro rfl
      have unsigned : c ≠ '+' := by
        rintro rfl
        cases first
      rw [List.nil_append, parseU16, read]
      · simp
      · intro h; cases h; exact unsigned rfl
      · intro d h; cases h; exact unsigned rfl
    · rintro rfl
      exact read

theorem isKeyByte_lt (b : UInt8) (key : isKeyByte b = true) : b < 0x80 := by
  simp only [isKeyByte, Bool.or_eq_true, Bool.and_eq_true, decide_eq_true_eq, UInt8.le_iff_toNat_le, ← UInt8.toNat_inj] at key
  rw [UInt8.lt_iff_toNat_lt]
  simp only [UInt8.reduceToNat] at key ⊢
  omega

theorem lead_not_key (b lead : UInt8) (high : 0x80 ≤ lead) : isKeyByte (b ||| lead) = false := by
  by_contra key
  have low := isKeyByte_lt _ (Bool.not_eq_false _ ▸ key)
  have above : lead.toNat ≤ (b ||| lead).toNat := by
    rw [UInt8.toNat_or]
    exact Nat.right_le_or
  rw [UInt8.lt_iff_toNat_lt] at low
  rw [UInt8.le_iff_toNat_le] at high
  omega

theorem isKeyChar_eq (c : Char) : isKeyChar c =
    (decide (65 ≤ c.val ∧ c.val ≤ 90) || (97 ≤ c.val && c.val ≤ 122) || (48 ≤ c.val && c.val ≤ 57) ||
      c = '/' || c = '+') := rfl

theorem isKeyChar_range (c : Char) (key : isKeyChar c = true) : 43 ≤ c.toNat ∧ c.toNat ≤ 122 := by
  simp only [isKeyChar_eq, Bool.or_eq_true, Bool.and_eq_true, decide_eq_true_eq, Char.ext_iff,
    UInt32.le_iff_toNat_le, ← UInt32.toNat_inj, Char.reduceVal, UInt32.reduceToNat] at key
  rw [Char.toNat]
  omega

theorem isKeyChar_lt (c : Char) (key : isKeyChar c = true) : c.val ≤ 127 := by
  have range := (isKeyChar_range c key).2
  rw [UInt32.le_iff_toNat_le]
  exact range.trans (by decide)

theorem isKeyByte_ascii (c : Char) (ascii : c.val ≤ 127) : isKeyByte c.val.toUInt8 = isKeyChar c := by
  rw [UInt32.le_iff_toNat_le] at ascii
  have same : c.val.toUInt8.toNat = c.val.toNat := by
    rw [UInt32.toNat_toUInt8]
    exact Nat.mod_eq_of_lt (Nat.lt_of_le_of_lt ascii (by decide))
  rw [Bool.eq_iff_iff]
  simp only [isKeyByte, isKeyChar_eq, Bool.or_eq_true, Bool.and_eq_true, decide_eq_true_eq,
    UInt8.le_iff_toNat_le, ← UInt8.toNat_inj, same, Char.ext_iff, UInt32.le_iff_toNat_le, ← UInt32.toNat_inj,
    UInt8.reduceToNat, UInt32.reduceToNat, Char.reduceVal]
  omega

theorem utf8_key_char (c : Char) : (String.utf8EncodeChar c).all isKeyByte = isKeyChar c := by
  by_cases ascii : c.val ≤ 127
  · rw [String.utf8EncodeChar_eq_singleton (Char.utf8Size_eq_one_iff.mpr ascii)]
    rw [List.all_cons, List.all_nil, Bool.and_true]
    exact isKeyByte_ascii c ascii
  · have other : isKeyChar c = false := Bool.eq_false_iff.mpr fun key => ascii (isKeyChar_lt c key)
    have wide := Char.utf8Size_le_four c
    have positive := Char.utf8Size_pos c
    have single : c.utf8Size ≠ 1 := fun one => ascii (Char.utf8Size_eq_one_iff.mp one)
    have sizes : c.utf8Size = 2 ∨ c.utf8Size = 3 ∨ c.utf8Size = 4 := by omega
    rw [other]
    rcases sizes with two | three | four
    · simp [String.utf8EncodeChar_eq_cons_cons two, lead_not_key]
    · simp [String.utf8EncodeChar_eq_cons_cons_cons three, lead_not_key]
    · simp [String.utf8EncodeChar_eq_cons_cons_cons_cons four, lead_not_key]

theorem all_utf8 (key : Text) : (utf8 key).all isKeyByte = key.all isKeyChar := by
  rw [utf8, List.all_flatMap]
  congr 1
  funext c
  exact utf8_key_char c

theorem length_utf8 (key : Text) (chars : key.all isKeyChar = true) : (utf8 key).length = key.length := by
  induction key with
  | nil => rfl
  | cons c key ih =>
    rw [List.all_cons, Bool.and_eq_true] at chars
    have one : c.utf8Size = 1 := Char.utf8Size_eq_one_iff.mpr (isKeyChar_lt c chars.1)
    rw [utf8, List.flatMap_cons, List.length_append, String.length_utf8EncodeChar, one, List.length_cons, Nat.add_comm]
    exact congrArg (· + 1) (ih chars.2)

theorem utf8_key (key : Text) : ((utf8 key).length = 22 ∧ (utf8 key).all isKeyByte = true) ↔
    key.length = 22 ∧ ∀ c ∈ key, isKeyChar c = true := by
  rw [all_utf8, ← List.all_eq_true]
  apply and_congr_left
  intro chars
  rw [length_utf8 key chars]

-- Words of a line.

theorem isKeyChar_unbroken (c : Char) (key : isKeyChar c = true) : isWhitespace c = false := by
  have range := isKeyChar_range c key
  simp only [isWhitespace, Bool.or_eq_false_iff, Bool.and_eq_false_iff, decide_eq_false_iff_not]
  omega

theorem isDigit_isKeyChar (c : Char) (digit : c.isDigit = true) : isKeyChar c = true := by
  simp [isKeyChar, Char.isAlphanum, digit]

theorem PortKey.key_word {digits key : Text} (groups : PortKey digits key) : Word isWhitespace key where
  nonempty := by
    rintro rfl
    exact absurd groups.length (by decide)
  unbroken c member := isKeyChar_unbroken c (groups.chars c member)

theorem PortKey.port_word {digits key sign : Text} (groups : PortKey digits key) (signed : sign = [] ∨ sign = ['+']) :
    Word isWhitespace (sign ++ digits) where
  nonempty empty := groups.nonempty (List.append_eq_nil_iff.mp empty).2
  unbroken c member := by
    apply (List.mem_append.mp member).elim
    · intro inside
      have plus : c = '+' := by
        apply signed.elim
        · rintro rfl
          cases inside
        · rintro rfl
          exact List.mem_singleton.mp inside
      subst plus
      rfl
    · intro inside
      exact isKeyChar_unbroken c (isDigit_isKeyChar c (groups.decimal c inside))

theorem splitWhitespace_connect (tail : Text) :
    splitWhitespace (connectLead ++ tail) = "MOSH".toList :: "CONNECT".toList :: splitWhitespace tail := by
  have lead : connectLead ++ tail = "MOSH".toList ++ ' ' :: ("CONNECT".toList ++ ' ' :: tail) := rfl
  have blank : isWhitespace ' ' = true := rfl
  rw [splitWhitespace, lead, splitWords_separator blank, splitWords_separator blank]
  rfl

theorem trimEndCr_append (line : Text) : ∃ after, line = trimEndCr line ++ after ∧ ∀ c ∈ after, c = '\r' := by
  refine ⟨line.rtakeWhile (· = '\r'), ?_, fun c member => by simpa using List.mem_rtakeWhile_imp member⟩
  exact (List.rdropWhile_append_rtakeWhile ..).symm

theorem splitWhitespace_trimEndCr (line : Text) : splitWhitespace (trimEndCr line) = splitWhitespace line := by
  obtain ⟨after, whole, returns⟩ := trimEndCr_append line
  have apart : Gap isWhitespace after := by
    intro c member
    rw [returns c member]
    rfl
  have trimmed := splitWords_append_gap (trimEndCr line) apart
  rw [← whole] at trimmed
  exact trimmed.symm

theorem trimEndCr_connect (tail : Text) : trimEndCr (connectLead ++ tail) = connectLead ++ trimEndCr tail := by
  induction tail using List.reverseRecOn with
  | nil => rfl
  | append_singleton tail c ih =>
    unfold trimEndCr at ih ⊢
    rw [← List.append_assoc, List.rdropWhile_concat, List.rdropWhile_concat, ih]
    split
    · rfl
    · rw [List.append_assoc]

theorem isPrefixOf_trimEndCr (lead line : Text) (starts : lead.isPrefixOf (trimEndCr line) = true) :
    lead.isPrefixOf line = true := by
  rw [List.isPrefixOf_iff_prefix] at starts ⊢
  exact starts.trans (List.rdropWhile_prefix _ _)

theorem connectLead_trimEndCr (line : Text) :
    connectLead.isPrefixOf (trimEndCr line) = connectLead.isPrefixOf line := by
  rw [Bool.eq_iff_iff]
  constructor
  · exact isPrefixOf_trimEndCr connectLead line
  · intro starts
    obtain ⟨tail, rfl⟩ := List.isPrefixOf_iff_prefix.mp starts
    rw [trimEndCr_connect, List.isPrefixOf_iff_prefix]
    exact List.prefix_append ..

-- The line that is read.

theorem parseConnect_eq_ok (line : Text) (bootstrap : MoshBootstrap) :
    parseConnect line = .ok bootstrap ↔ ∃ front back word, splitWhitespace line = [front, back, word, bootstrap.key] ∧
      parseU16 word = some bootstrap.port ∧
      ((utf8 bootstrap.key).length = 22 ∧ (utf8 bootstrap.key).all isKeyByte = true) ∧ bootstrap.serverIp = none := by
  unfold parseConnect
  constructor
  · intro parsed
    split at parsed
    · next front back word key split =>
      split at parsed
      · cases parsed
      · next port number =>
        split at parsed
        · cases parsed
        · next good =>
          cases parsed
          simp only [Bool.or_eq_true, decide_eq_true_eq, not_or, Decidable.not_not, Bool.not_eq_true',
            Bool.not_eq_false] at good
          exact ⟨front, back, word, split, number, good, rfl⟩
    · cases parsed
  · rintro ⟨front, back, word, split, number, ⟨size, bytes⟩, unset⟩
    rw [split]
    dsimp only
    rw [number]
    dsimp only
    rw [if_neg (by simp [size, bytes]), ← unset]

theorem parseConnect_connect (tail : Text) (bootstrap : MoshBootstrap) :
    parseConnect (trimEndCr (connectLead ++ tail)) = .ok bootstrap ↔ bootstrap.serverIp = none ∧
      ∃ before sign digits between after, connectLead ++ tail = spelled before sign digits between bootstrap.key after ∧
        Spelling before sign digits between bootstrap.key after ∧ bootstrap.port.toNat = portNumber digits := by
  rw [parseConnect_eq_ok, splitWhitespace_trimEndCr, splitWhitespace_connect]
  constructor
  · rintro ⟨front, back, word, split, number, bytes, unset⟩
    simp only [List.cons.injEq] at split
    have words := (splitWords_eq_pair tail word bootstrap.key).mp split.2.2
    obtain ⟨-, -, before, between, after, rfl, outer, apart, inner, ends⟩ := words
    obtain ⟨sign, digits, rfl, signed, nonempty, decimal, fits, value⟩ := (parseU16_eq_some word _).mp number
    obtain ⟨length, chars⟩ := (utf8_key _).mp bytes
    exact ⟨unset, before, sign, digits, between, after, rfl,
      ⟨⟨nonempty, decimal, fits, length, chars⟩, outer, signed, apart, inner, ends⟩, value⟩
  · rintro ⟨unset, before, sign, digits, between, after, whole, spelling, value⟩
    have groups := spelling.groups
    have words : splitWhitespace tail = [sign ++ digits, bootstrap.key] := by
      rw [splitWhitespace, splitWords_eq_pair]
      exact ⟨groups.port_word spelling.signed, groups.key_word, before, between, after, List.append_cancel_left whole,
        spelling.before, spelling.apart, spelling.between, spelling.after⟩
    have number : parseU16 (sign ++ digits) = some bootstrap.port := by
      rw [parseU16_eq_some]
      exact ⟨sign, digits, rfl, spelling.signed, groups.nonempty, groups.decimal, groups.fits, value⟩
    exact ⟨_, _, _, by rw [words], number, (utf8_key _).mpr ⟨groups.length, groups.chars⟩, unset⟩

end MoshModel
