import Mathlib.Data.List.Basic

namespace ShellWords

abbrev Text := List Char

inductive Quoting where
  | unquoted
  | singleQuoted
  | escaped
deriving DecidableEq

def isBlank (c : Char) : Bool := c = ' ' || c = '\t'

def isSpecial (c : Char) : Bool := "|&;<>()$\x60\"*?[#~=%!\x7b\x7d\n".toList.contains c

def isOrdinary (c : Char) : Bool := c ≠ '\x27' && c ≠ '\\' && !isBlank c && !isSpecial c

def extend (word : Option Text) (text : Text) : Option Text := some (word.getD [] ++ text)

/-- `word` is the word being read, `none` between two words: `''` alone is an empty word. -/
def split : Quoting → Option Text → Text → Option (List Text)
  | .unquoted, word, [] => some word.toList
  | .singleQuoted, _, [] => none
  | .escaped, _, [] => none
  | .unquoted, word, c :: rest =>
    if c = '\x27' then split .singleQuoted (extend word []) rest
    else if c = '\\' then split .escaped word rest
    else if isBlank c then (split .unquoted none rest).map (word.toList ++ ·)
    else if isSpecial c then none
    else split .unquoted (extend word [c]) rest
  | .singleQuoted, word, c :: rest =>
    if c = '\x27' then split .unquoted word rest
    else split .singleQuoted (extend word [c]) rest
  | .escaped, word, c :: rest =>
    -- A backslash before a newline continues the line: both go.
    if c = '\n' then split .unquoted word rest
    else split .unquoted (extend word [c]) rest

def words (line : Text) : Option (List Text) := split .unquoted none line

/-- Wherever `text` stands outside quotes, it adds `arg` to the word there and nothing else. -/
def Spells (text arg : Text) : Prop :=
  ∀ word rest, split .unquoted word (text ++ rest) = split .unquoted (extend word arg) rest

variable {text arg : Text}

@[simp] theorem extend_extend (word : Option Text) (front back : Text) :
    extend (extend word front) back = extend word (front ++ back) := by
  simp [extend]

def Encloses (text arg : Text) : Prop :=
  ∀ front rest, split .singleQuoted (some front) (text ++ rest) = split .singleQuoted (some (front ++ arg)) rest

theorem Encloses.nil : Encloses [] [] := by
  intro front rest
  rw [List.append_nil, List.nil_append]

theorem Encloses.append {text' arg' : Text} (first : Encloses text arg) (second : Encloses text' arg') :
    Encloses (text ++ text') (arg ++ arg') := by
  intro front rest
  rw [List.append_assoc, first, second, List.append_assoc]

theorem Encloses.char {c : Char} (other : c ≠ '\x27') : Encloses [c] [c] := by
  intro front rest
  rw [List.singleton_append, split, if_neg other]
  rfl

/-- A quote leaves the single quotes, stands there behind a backslash and opens them again. -/
theorem Encloses.quote : Encloses "'\\''".toList ['\x27'] := by
  intro front rest
  simp [split, extend]

theorem Encloses.spells (encloses : Encloses text arg) : Spells ('\x27' :: (text ++ ['\x27'])) arg := by
  intro word rest
  rw [List.cons_append, split, if_pos rfl, List.append_assoc, extend, encloses, List.singleton_append, split,
    if_pos rfl, List.append_nil]
  rfl

theorem Spells.ordinary (nonempty : arg ≠ []) (plain : ∀ c ∈ arg, isOrdinary c = true) : Spells arg arg := by
  induction arg with
  | nil => exact absurd rfl nonempty
  | cons c arg ih =>
    intro word rest
    have here := plain c (List.mem_cons_self ..)
    simp only [isOrdinary, Bool.and_eq_true, decide_eq_true_eq, Bool.not_eq_true'] at here
    obtain ⟨⟨⟨quote, backslash⟩, blank⟩, special⟩ := here
    rw [List.cons_append, split, if_neg quote, if_neg backslash, if_neg (by simp [blank]),
      if_neg (by simp [special])]
    cases arg with
    | nil => rfl
    | cons d arg =>
      rw [ih (List.cons_ne_nil _ _) (fun e member => plain e (List.mem_cons_of_mem _ member)), extend_extend]
      rfl

theorem Spells.words_eq (spells : Spells text arg) : words text = some [arg] := by
  have whole := spells none []
  rw [List.append_nil] at whole
  exact whole

theorem Spells.words_cons (spells : Spells text arg) (rest : Text) :
    words (text ++ ' ' :: rest) = (words rest).map (arg :: ·) := by
  rw [words, spells, split, if_neg (by decide), if_neg (by decide), if_pos (by decide)]
  rfl

theorem words_join {texts args : List Text} (spell : List.Forall₂ Spells texts args) :
    words ([' '].intercalate texts) = some args := by
  induction spell with
  | nil => rfl
  | @cons text arg texts args first later ih =>
    cases later with
    | nil => simpa using first.words_eq
    | cons second others =>
      rw [List.intercalate_cons_cons, List.append_assoc, List.singleton_append, first.words_cons, ih]
      rfl

end ShellWords
