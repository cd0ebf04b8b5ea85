import Mathlib.Data.List.Basic

namespace Base64

def alphabet : List Char := "ABCDEFGHIJKLMNOPQRSTUVWXYZabcdefghijklmnopqrstuvwxyz0123456789+/".toList

def symbol (sextet : Nat) : Char := alphabet[sextet]?.getD '='

/-- Three bytes make four symbols; what is left of the last group is padded with zero bits and `=`. -/
def encode : List UInt8 → List Char
  | [] => []
  | [a] => [symbol (a.toNat / 4), symbol (a.toNat % 4 * 16), '=', '=']
  | [a, b] => [symbol (a.toNat / 4), symbol (a.toNat % 4 * 16 + b.toNat / 16), symbol (b.toNat % 16 * 4), '=']
  | a :: b :: c :: rest =>
    symbol (a.toNat / 4) :: symbol (a.toNat % 4 * 16 + b.toNat / 16) :: symbol (b.toNat % 16 * 4 + c.toNat / 64) ::
      symbol (c.toNat % 64) :: encode rest

theorem symbol_eq {sextet : Nat} (small : sextet < alphabet.length) : symbol sextet = alphabet[sextet] := by
  rw [symbol, List.getElem?_eq_getElem small, Option.getD_some]

theorem symbol_mem {sextet : Nat} (small : sextet < 64) : symbol sextet ∈ alphabet := by
  rw [symbol_eq (show sextet < alphabet.length from small)]
  exact List.getElem_mem _

theorem exists_symbol {c : Char} (member : c ∈ alphabet) : ∃ sextet, sextet < 64 ∧ symbol sextet = c := by
  obtain ⟨sextet, small, rfl⟩ := List.getElem_of_mem member
  exact ⟨sextet, small, symbol_eq small⟩

theorem toNat_ofNat {number : Nat} (small : number < 256) : (UInt8.ofNat number).toNat = number := by
  simpa using small

theorem encode_append {groups : Nat} {bytes : List UInt8} (whole : bytes.length = 3 * groups) (more : List UInt8) :
    encode (bytes ++ more) = encode bytes ++ encode more := by
  induction groups generalizing bytes with
  | zero =>
    rw [List.length_eq_zero_iff.mp whole]
    rfl
  | succ groups ih =>
    match bytes, whole with
    | a :: b :: c :: rest, whole =>
      have shorter : rest.length = 3 * groups := by
        simp only [List.length_cons] at whole
        omega
      simp only [List.cons_append, encode, ih shorter]
    | [], whole | [_], whole | [_, _], whole =>
      simp only [List.length_cons, List.length_nil] at whole
      omega

theorem encode_symbols {groups : Nat} {bytes : List UInt8} (whole : bytes.length = 3 * groups) :
    (encode bytes).length = 4 * groups ∧ ∀ c ∈ encode bytes, c ∈ alphabet := by
  induction groups generalizing bytes with
  | zero =>
    rw [List.length_eq_zero_iff.mp whole]
    exact ⟨rfl, fun c member => absurd member List.not_mem_nil⟩
  | succ groups ih =>
    match bytes, whole with
    | a :: b :: c :: rest, whole =>
      obtain ⟨length, symbols⟩ := @ih rest (by simp only [List.length_cons] at whole; omega)
      have first := a.toNat_lt
      have second := b.toNat_lt
      have third := c.toNat_lt
      constructor
      · simp only [encode, List.length_cons, length]
        omega
      · simp only [encode, List.forall_mem_cons]
        exact ⟨symbol_mem (by omega), symbol_mem (by omega), symbol_mem (by omega), symbol_mem (by omega), symbols⟩
    | [], whole | [_], whole | [_, _], whole =>
      simp only [List.length_cons, List.length_nil] at whole
      omega

theorem exists_encode {groups : Nat} {text : List Char} (length : text.length = 4 * groups)
    (symbols : ∀ c ∈ text, c ∈ alphabet) : ∃ bytes, bytes.length = 3 * groups ∧ encode bytes = text := by
  induction groups generalizing text with
  | zero =>
    rw [List.length_eq_zero_iff.mp length]
    exact ⟨[], rfl, rfl⟩
  | succ groups ih =>
    match text, length with
    | p :: q :: r :: s :: rest, length =>
      simp only [List.forall_mem_cons] at symbols
      obtain ⟨first, second, third, fourth, symbols⟩ := symbols
      obtain ⟨bytes, whole, spelled⟩ := ih (by simp only [List.length_cons] at length; omega) symbols
      obtain ⟨i, iSmall, rfl⟩ := exists_symbol first
      obtain ⟨j, jSmall, rfl⟩ := exists_symbol second
      obtain ⟨k, kSmall, rfl⟩ := exists_symbol third
      obtain ⟨l, lSmall, rfl⟩ := exists_symbol fourth
      refine ⟨UInt8.ofNat (i * 4 + j / 16) :: UInt8.ofNat (j % 16 * 16 + k / 4) :: UInt8.ofNat (k % 4 * 64 + l) ::
        bytes, ?_, ?_⟩
      · simp only [List.length_cons, whole]
        omega
      · have parts : (i * 4 + j / 16) / 4 = i ∧ (i * 4 + j / 16) % 4 * 16 + (j % 16 * 16 + k / 4) / 16 = j ∧
            (j % 16 * 16 + k / 4) % 16 * 4 + (k % 4 * 64 + l) / 64 = k ∧ (k % 4 * 64 + l) % 64 = l := by
          omega
        rw [encode, toNat_ofNat (by omega), toNat_ofNat (by omega), toNat_ofNat (by omega), spelled, parts.1,
          parts.2.1, parts.2.2.1, parts.2.2.2]
    | [], length | [_], length | [_, _], length | [_, _, _], length =>
      simp only [List.length_cons, List.length_nil] at length
      omega

def sextet (c : Char) : Option Nat := alphabet.idxOf? c

/-- The strict reading: whole groups, padding at the end alone, and padded with zero bits. -/
def decode : List Char → Option (List UInt8)
  | [] => some []
  | p :: q :: r :: s :: rest => do
    let i ← sextet p
    let j ← sextet q
    if s = '=' ∧ rest = [] then
      if r = '=' then if j % 16 = 0 then some [UInt8.ofNat (i * 4 + j / 16)] else none
      else
        let k ← sextet r
        if k % 4 = 0 then some [UInt8.ofNat (i * 4 + j / 16), UInt8.ofNat (j % 16 * 16 + k / 4)] else none
    else
      let k ← sextet r
      let l ← sextet s
      let bytes ← decode rest
      some (UInt8.ofNat (i * 4 + j / 16) :: UInt8.ofNat (j % 16 * 16 + k / 4) :: UInt8.ofNat (k % 4 * 64 + l) :: bytes)
  | _ => none

theorem sextet_symbol {number : Nat} (small : number < 64) : sextet (symbol number) = some number := by
  have all : ∀ number < 64, sextet (symbol number) = some number := by decide +kernel
  exact all number small

theorem symbol_ne_pad {number : Nat} (small : number < 64) : symbol number ≠ '=' := by
  have all : ∀ number < 64, symbol number ≠ '=' := by decide +kernel
  exact all number small

theorem ofNat_eq {number : Nat} {byte : UInt8} (same : number = byte.toNat) : UInt8.ofNat number = byte := by
  rw [same, UInt8.ofNat_toNat]

theorem decode_encode (bytes : List UInt8) : decode (encode bytes) = some bytes := by
  induction bytes using encode.induct with
  | case1 => rfl
  | case2 a =>
    have first := a.toNat_lt
    rw [encode, decode, sextet_symbol (by omega), sextet_symbol (by omega)]
    have whole : UInt8.ofNat (a.toNat / 4 * 4 + a.toNat % 4 * 16 / 16) = a := ofNat_eq (by omega)
    have clear : a.toNat % 4 * 16 % 16 = 0 := by omega
    simp only [Option.bind_eq_bind, Option.bind_some, and_self, if_true, clear, whole]
  | case3 a b =>
    have first := a.toNat_lt
    have second := b.toNat_lt
    rw [encode, decode, sextet_symbol (by omega), sextet_symbol (by omega), sextet_symbol (by omega)]
    have whole : UInt8.ofNat (a.toNat / 4 * 4 + (a.toNat % 4 * 16 + b.toNat / 16) / 16) = a := ofNat_eq (by omega)
    have next : UInt8.ofNat ((a.toNat % 4 * 16 + b.toNat / 16) % 16 * 16 + b.toNat % 16 * 4 / 4) = b :=
      ofNat_eq (by omega)
    have unpadded : symbol (b.toNat % 16 * 4) ≠ '=' := symbol_ne_pad (by omega)
    have clear : b.toNat % 16 * 4 % 4 = 0 := by omega
    simp only [Option.bind_eq_bind, Option.bind_some, and_self, if_true, if_neg unpadded, clear, whole, next]
  | case4 a b c rest ih =>
    have first := a.toNat_lt
    have second := b.toNat_lt
    have third := c.toNat_lt
    rw [encode, decode, sextet_symbol (by omega), sextet_symbol (by omega), sextet_symbol (by omega),
      sextet_symbol (by omega), ih]
    have whole : UInt8.ofNat (a.toNat / 4 * 4 + (a.toNat % 4 * 16 + b.toNat / 16) / 16) = a := ofNat_eq (by omega)
    have next : UInt8.ofNat ((a.toNat % 4 * 16 + b.toNat / 16) % 16 * 16 +
        (b.toNat % 16 * 4 + c.toNat / 64) / 4) = b := ofNat_eq (by omega)
    have last : UInt8.ofNat ((b.toNat % 16 * 4 + c.toNat / 64) % 4 * 64 + c.toNat % 64) = c := ofNat_eq (by omega)
    have unpadded : symbol (c.toNat % 64) ≠ '=' := symbol_ne_pad (by omega)
    simp only [Option.bind_eq_bind, Option.bind_some, unpadded, false_and, if_false, whole, next, last]

end Base64
