import MoshClient.Library.Base64
import MoshClient.Bootstrap.Outputs

namespace MoshModel

inductive KeyError where
  | badKeyLength
  | badKeyEncoding
  | badKeyNotCanonical
deriving DecidableEq

def KeyError.message : KeyError → String
  | .badKeyLength => "mosh key must be 22 characters (16 bytes)"
  | .badKeyEncoding => "mosh key is not well-formed base64"
  | .badKeyNotCanonical => "mosh key is not a canonical encoding of a 128-bit key"

structure Base64Key where
  bytes : List UInt8
  size : bytes.length = 16
deriving DecidableEq

/-- The codec of the crate that spells keys. -/
structure Base64Code where
  encodeString : List UInt8 → Text
  decodeVec : Text → Option (List UInt8)

/-- The standard alphabet with padding, read back exactly. -/
structure Base64Code.Standard (code : Base64Code) : Prop where
  encodes : ∀ bytes, code.encodeString bytes = Base64.encode bytes
  decodes : ∀ bytes, code.decodeVec (Base64.encode bytes) = some bytes

namespace Base64Key

def printable (code : Base64Code) (key : Base64Key) : Text := (code.encodeString key.bytes).take 22

def parse (code : Base64Code) (text : Text) : Except KeyError Base64Key :=
  if (utf8 text).length ≠ 22 then .error .badKeyLength
  else
    match code.decodeVec (text ++ "==".toList) with
    | none => .error .badKeyEncoding
    | some bytes =>
      if size : bytes.length = 16 then
        let parsed : Base64Key := { bytes := bytes, size := size }
        if parsed.printable code ≠ text then .error .badKeyNotCanonical else .ok parsed
      else .error .badKeyLength

variable {code : Base64Code}

theorem mem_alphabet (c : Char) : c ∈ Base64.alphabet ↔ isKeyChar c = true := by
  constructor
  · have all : Base64.alphabet.all isKeyChar = true := by decide +kernel
    exact List.all_eq_true.mp all c
  · intro key
    obtain ⟨least, most⟩ := isKeyChar_range c key
    have all : ∀ n < 123, isKeyChar (Char.ofNat n) = true → Char.ofNat n ∈ Base64.alphabet := by decide +kernel
    have found := all c.toNat (by omega)
    rw [Char.ofNat_toNat] at found
    exact found key

theorem last_symbol (c : Char) : c ∈ ['A', 'Q', 'g', 'w'] ↔ ∃ bits, bits < 4 ∧ Base64.symbol (bits * 16) = c := by
  constructor
  · intro member
    simp only [List.mem_cons, List.not_mem_nil, or_false] at member
    rcases member with rfl | rfl | rfl | rfl
    · exact ⟨0, by decide, by decide⟩
    · exact ⟨1, by decide, by decide⟩
    · exact ⟨2, by decide, by decide⟩
    · exact ⟨3, by decide, by decide⟩
  · have all : ∀ bits < 4, Base64.symbol (bits * 16) ∈ ['A', 'Q', 'g', 'w'] := by decide
    rintro ⟨bits, small, rfl⟩
    exact all bits small

theorem printable_eq (standard : code.Standard) (key : Base64Key) :
    ∃ front last, key.bytes = front ++ [last] ∧ front.length = 3 * 5 ∧
      key.printable code = Base64.encode front ++
        [Base64.symbol (last.toNat / 4), Base64.symbol (last.toNat % 4 * 16)] ∧
      key.printable code ++ "==".toList = Base64.encode key.bytes := by
  have size := key.size
  obtain empty | ⟨front, last, split⟩ := List.eq_nil_or_concat key.bytes
  · rw [empty] at size
    cases size
  · rw [List.concat_eq_append] at split
    have whole : front.length = 3 * 5 := by
      rw [split, List.length_append] at size
      exact Nat.succ.inj size
    have spelled : Base64.encode key.bytes = Base64.encode front ++
        [Base64.symbol (last.toNat / 4), Base64.symbol (last.toNat % 4 * 16)] ++ "==".toList := by
      rw [split, Base64.encode_append whole, List.append_assoc]
      rfl
    have printed : key.printable code = Base64.encode front ++
        [Base64.symbol (last.toNat / 4), Base64.symbol (last.toNat % 4 * 16)] := by
      unfold printable
      rw [standard.encodes, spelled, List.take_left']
      rw [List.length_append, (Base64.encode_symbols whole).1]
      rfl
    exact ⟨front, last, split, whole, printed, by rw [printed, spelled]⟩

theorem printable_chars (standard : code.Standard) (key : Base64Key) :
    (key.printable code).length = 22 ∧ (∀ c ∈ key.printable code, isKeyChar c = true) ∧
      ∃ c ∈ (key.printable code).getLast?, c ∈ ['A', 'Q', 'g', 'w'] := by
  obtain ⟨front, last, -, whole, printed, -⟩ := key.printable_eq standard
  obtain ⟨length, symbols⟩ := Base64.encode_symbols whole
  have bound := last.toNat_lt
  rw [printed]
  refine ⟨?_, ?_, ?_⟩
  · rw [List.length_append, length]
    rfl
  · intro c member
    rw [← mem_alphabet]
    simp only [List.mem_append, List.mem_cons, List.not_mem_nil, or_false] at member
    rcases member with early | rfl | rfl
    · exact symbols c early
    · exact Base64.symbol_mem (by omega)
    · exact Base64.symbol_mem (by omega)
  · refine ⟨Base64.symbol (last.toNat % 4 * 16), by simp, ?_⟩
    exact (last_symbol _).mpr ⟨last.toNat % 4, Nat.mod_lt _ (by decide), rfl⟩

theorem exists_printable (standard : code.Standard) {text : Text} (length : text.length = 22)
    (chars : ∀ c ∈ text, isKeyChar c = true) (last : ∃ c ∈ text.getLast?, c ∈ ['A', 'Q', 'g', 'w']) :
    ∃ key : Base64Key, key.printable code = text := by
  obtain ⟨p, q, rest⟩ : ∃ p q, text.drop 20 = [p, q] := List.length_eq_two.mp (by rw [List.length_drop, length])
  have split : text = text.take 20 ++ [p, q] := by rw [← rest, List.take_append_drop]
  obtain ⟨c, final, among⟩ := last
  rw [split, show text.take 20 ++ [p, q] = text.take 20 ++ [p] ++ [q] by simp, List.getLast?_concat] at final
  obtain rfl : q = c := Option.some.inj final
  obtain ⟨bits, small, rfl⟩ := (last_symbol q).mp among
  obtain ⟨high, highSmall, rfl⟩ := Base64.exists_symbol ((mem_alphabet p).mpr (chars p (by rw [split]; simp)))
  obtain ⟨front, whole, spelled⟩ := @Base64.exists_encode 5 (text.take 20) (by rw [List.length_take, length]; rfl)
    fun c member => (mem_alphabet c).mpr (chars c (List.mem_of_mem_take member))
  have size : (front ++ [UInt8.ofNat (high * 4 + bits)]).length = 16 := by
    rw [List.length_append, whole]
    rfl
  refine ⟨⟨front ++ [UInt8.ofNat (high * 4 + bits)], size⟩, ?_⟩
  have parts : (high * 4 + bits) / 4 = high ∧ (high * 4 + bits) % 4 = bits := by omega
  unfold printable
  rw [standard.encodes, Base64.encode_append whole, spelled]
  rw [Base64.encode, Base64.toNat_ofNat (by omega), parts.1, parts.2]
  conv_rhs => rw [split]
  rw [show text.take 20 ++ [Base64.symbol high, Base64.symbol (bits * 16), '=', '='] =
    text.take 20 ++ [Base64.symbol high, Base64.symbol (bits * 16)] ++ ['=', '='] by simp, List.take_left']
  rw [List.length_append, List.length_take, length]
  rfl

theorem parse_eq_ok (standard : code.Standard) (text : Text) (key : Base64Key) :
    parse code text = .ok key ↔ key.printable code = text := by
  constructor
  · intro parsed
    unfold parse at parsed
    split at parsed
    · cases parsed
    · split at parsed
      · cases parsed
      · split at parsed
        · dsimp only at parsed
          split at parsed
          · cases parsed
          · next same =>
            cases parsed
            exact not_not.mp same
        · cases parsed
  · rintro rfl
    obtain ⟨length, chars, -⟩ := printable_chars standard key
    obtain ⟨_, _, -, -, -, padded⟩ := key.printable_eq standard
    have size := ((utf8_key _).mpr ⟨length, chars⟩).1
    unfold parse
    rw [if_neg (not_not.mpr size), padded, standard.decodes]
    dsimp only
    rw [dif_pos key.size, if_neg (not_not.mpr rfl)]

theorem parses_iff (standard : code.Standard) (text : Text) :
    (∃ key, parse code text = .ok key) ↔ text.length = 22 ∧ (∀ c ∈ text, isKeyChar c = true) ∧
      ∃ c ∈ text.getLast?, c ∈ ['A', 'Q', 'g', 'w'] := by
  constructor
  · rintro ⟨key, parsed⟩
    rw [← (parse_eq_ok standard text key).mp parsed]
    exact printable_chars standard key
  · rintro ⟨length, chars, last⟩
    obtain ⟨key, printed⟩ := exists_printable standard length chars last
    exact ⟨key, (parse_eq_ok standard text key).mpr printed⟩

/-- A key is read back from its spelling and from no other text; the texts that are keys are those of 22 symbols
    that end in one of four, so that of the keys an output of the server gives, just those with such an end are
    good. -/
theorem key_codec (code : Base64Code) (standard : code.Standard) :
    (∀ text key, parse code text = .ok key ↔ key.printable code = text) ∧
      (∀ text, (∃ key, parse code text = .ok key) ↔ text.length = 22 ∧ (∀ c ∈ text, isKeyChar c = true) ∧
        ∃ c ∈ text.getLast?, c ∈ ['A', 'Q', 'g', 'w']) ∧
      ∀ output bootstrap, parseMoshBootstrap output = .ok bootstrap →
        ((∃ key, parse code bootstrap.key = .ok key) ↔ ∃ c ∈ bootstrap.key.getLast?, c ∈ ['A', 'Q', 'g', 'w']) := by
  refine ⟨parse_eq_ok standard, parses_iff standard, ?_⟩
  intro output bootstrap parsed
  obtain ⟨-, line, -, read⟩ := (parse_kinds_ok output bootstrap).mp parsed
  obtain ⟨_, _, _, -, -, good, -⟩ := (parseConnect_eq_ok _ _).mp read
  obtain ⟨length, chars⟩ := (utf8_key bootstrap.key).mp good
  rw [parses_iff standard]
  constructor
  · exact fun ⟨_, _, last⟩ => last
  · exact fun last => ⟨length, chars, last⟩

def strictCode : Base64Code := { encodeString := Base64.encode, decodeVec := Base64.decode }

theorem strictCode_standard : strictCode.Standard := ⟨fun _ => rfl, Base64.decode_encode⟩

theorem key_codec_strict :
    (∃ key, parse strictCode "7l1cNvxYVkWP1j8zMC08Jg".toList = .ok key) ∧
      ¬ ∃ key, parse strictCode "AAAAAAAAAAAAAAAAAAAAAD".toList = .ok key := by
  obtain ⟨-, accepted, -⟩ := key_codec strictCode strictCode_standard
  rw [accepted, accepted]
  have symbols : "7l1cNvxYVkWP1j8zMC08Jg".toList.all isKeyChar = true := by decide +kernel
  constructor
  · exact ⟨by decide, List.all_eq_true.mp symbols, 'g', by decide, by decide⟩
  · intro ⟨_, _, c, last, among⟩
    obtain rfl : 'D' = c := Option.some.inj last
    exact absurd among (by decide)

end Base64Key

end MoshModel
