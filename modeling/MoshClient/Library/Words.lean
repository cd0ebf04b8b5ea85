import Mathlib.Data.List.TakeWhile

namespace Words

variable {Symbol : Type*} {separates : Symbol → Bool}

def splitWords (separates : Symbol → Bool) (text : List Symbol) : List (List Symbol) :=
  (text.splitOnP separates).filter (!·.isEmpty)

def Gap (separates : Symbol → Bool) (text : List Symbol) : Prop := ∀ symbol ∈ text, separates symbol = true

structure Word (separates : Symbol → Bool) (text : List Symbol) : Prop where
  nonempty : text ≠ []
  unbroken : ∀ symbol ∈ text, separates symbol = false

def Stops (separates : Symbol → Bool) (rest : List Symbol) : Prop := ∀ symbol ∈ rest.head?, separates symbol = true

variable {gap word rest : List Symbol} {symbol : Symbol}

theorem splitWords_separator (sep : separates symbol = true) (front back : List Symbol) :
    splitWords separates (front ++ symbol :: back) = splitWords separates front ++ splitWords separates back := by
  rw [splitWords, List.splitOnP_append_cons front back sep, List.filter_append]
  rfl

theorem splitWords_nil : splitWords separates [] = [] := by
  simp [splitWords, List.splitOnP_nil]

theorem splitWords_cons (sep : separates symbol = true) (rest : List Symbol) :
    splitWords separates (symbol :: rest) = splitWords separates rest := by
  simpa [splitWords_nil] using splitWords_separator sep [] rest

theorem splitWords_gap_append (apart : Gap separates gap) (rest : List Symbol) :
    splitWords separates (gap ++ rest) = splitWords separates rest := by
  induction gap with
  | nil => rfl
  | cons symbol gap ih =>
    rw [List.cons_append, splitWords_cons (apart symbol (List.mem_cons_self ..))]
    exact ih fun other member => apart other (List.mem_cons_of_mem _ member)

theorem splitWords_gap (apart : Gap separates gap) : splitWords separates gap = [] := by
  simpa [splitWords_nil] using splitWords_gap_append apart []

theorem splitWords_append_gap (text : List Symbol) (apart : Gap separates gap) :
    splitWords separates (text ++ gap) = splitWords separates text := by
  cases gap with
  | nil => rw [List.append_nil]
  | cons symbol gap =>
    rw [splitWords_separator (apart symbol (List.mem_cons_self ..)),
      splitWords_gap fun other member => apart other (List.mem_cons_of_mem _ member), List.append_nil]

theorem splitWords_word (is : Word separates word) : splitWords separates word = [word] := by
  have whole : word.splitOnP separates = [word] := List.splitOnP_eq_singleton is.unbroken
  simp [splitWords, whole, is.nonempty]

theorem splitWords_word_append (is : Word separates word) (ends : Stops separates rest) :
    splitWords separates (word ++ rest) = word :: splitWords separates rest := by
  cases rest with
  | nil => rw [List.append_nil, splitWords_word is, splitWords_nil]
  | cons symbol rest =>
    have sep := ends symbol rfl
    rw [splitWords_separator sep, splitWords_word is, splitWords_cons sep]
    rfl

theorem dropWhile_stops (kind : Symbol → Bool) (text : List Symbol) :
    ∀ symbol ∈ (text.dropWhile kind).head?, kind symbol = false := by
  intro symbol head
  have stop := List.head?_dropWhile_not kind text
  rw [Option.mem_def.mp head] at stop
  exact stop

/-- Every text is a gap, then a word, then what starts with a separator or is empty. -/
theorem exists_first_word (separates : Symbol → Bool) (text : List Symbol) : Gap separates text ∨
    ∃ gap word rest, text = gap ++ (word ++ rest) ∧ Gap separates gap ∧ Word separates word ∧ Stops separates rest := by
  have apart := List.takeWhile_append_dropWhile (p := separates) (l := text)
  have front : Gap separates (text.takeWhile separates) := fun _ => List.mem_takeWhile_imp
  have first := dropWhile_stops separates text
  cases later : text.dropWhile separates with
  | nil =>
    left
    rw [later, List.append_nil] at apart
    rwa [apart] at front
  | cons symbol back =>
    right
    rw [later] at apart first
    have inside := List.takeWhile_append_dropWhile (p := fun other => !separates other) (l := symbol :: back)
    have ends := dropWhile_stops (fun other => !separates other) (symbol :: back)
    refine ⟨text.takeWhile separates, (symbol :: back).takeWhile fun other => !separates other,
      (symbol :: back).dropWhile fun other => !separates other, ?_, front, ⟨?_, ?_⟩, ?_⟩
    · rw [inside, apart]
    · simp [first symbol rfl]
    · intro other member
      simpa using List.mem_takeWhile_imp member
    · intro other head
      simpa using ends other head

theorem splitWords_eq_nil {text : List Symbol} (none : splitWords separates text = []) : Gap separates text := by
  apply (exists_first_word separates text).resolve_right
  rintro ⟨gap, word, rest, rfl, apart, is, ends⟩
  rw [splitWords_gap_append apart, splitWords_word_append is ends] at none
  cases none

theorem splitWords_eq_cons {text : List Symbol} {words : List (List Symbol)}
    (split : splitWords separates text = word :: words) :
    ∃ gap rest, text = gap ++ (word ++ rest) ∧ Gap separates gap ∧ Word separates word ∧ Stops separates rest ∧
      splitWords separates rest = words := by
  apply (exists_first_word separates text).elim
  · intro apart
    rw [splitWords_gap apart] at split
    cases split
  · rintro ⟨gap, first, rest, rfl, apart, is, ends⟩
    rw [splitWords_gap_append apart, splitWords_word_append is ends] at split
    cases split
    exact ⟨gap, rest, rfl, apart, is, ends, rfl⟩

theorem splitWords_eq_pair (text first second : List Symbol) : splitWords separates text = [first, second] ↔
    Word separates first ∧ Word separates second ∧ ∃ before between after,
      text = before ++ (first ++ (between ++ (second ++ after))) ∧ Gap separates before ∧ between ≠ [] ∧
        Gap separates between ∧ Gap separates after := by
  constructor
  · intro split
    obtain ⟨before, rest, rfl, apart, firstIs, ends, later⟩ := splitWords_eq_cons split
    obtain ⟨between, after, rfl, inner, secondIs, -, last⟩ := splitWords_eq_cons later
    refine ⟨firstIs, secondIs, before, between, after, rfl, apart, ?_, inner, splitWords_eq_nil last⟩
    rintro rfl
    obtain ⟨symbol, others, rfl⟩ := List.exists_cons_of_ne_nil secondIs.nonempty
    have sep := ends symbol rfl
    rw [secondIs.unbroken symbol (List.mem_cons_self ..)] at sep
    cases sep
  · rintro ⟨firstIs, secondIs, before, between, after, rfl, apart, nonempty, inner, outer⟩
    obtain ⟨symbol, others, rfl⟩ := List.exists_cons_of_ne_nil nonempty
    have ends : Stops separates (symbol :: others ++ (second ++ after)) := by
      rintro _ ⟨⟩
      exact inner symbol (List.mem_cons_self ..)
    rw [splitWords_gap_append apart, splitWords_word_append firstIs ends, splitWords_gap_append inner,
      splitWords_append_gap second outer, splitWords_word secondIs]

theorem Word.head_append (is : Word separates word) (rest : List Symbol) :
    ∀ symbol ∈ (word ++ rest).head?, separates symbol = false := by
  obtain ⟨first, others, rfl⟩ := List.exists_cons_of_ne_nil is.nonempty
  rintro _ ⟨⟩
  exact is.unbroken first (List.mem_cons_self ..)

theorem takeWhile_append {kind : Symbol → Bool} {front back : List Symbol}
    (all : ∀ symbol ∈ front, kind symbol = true) (ends : ∀ symbol ∈ back.head?, kind symbol = false) :
    (front ++ back).takeWhile kind = front := by
  rw [List.takeWhile_append_of_pos all]
  cases back with
  | nil => simp
  | cons symbol back => simp [show kind symbol = false from ends symbol rfl]

theorem span_unique {kind : Symbol → Bool} {front front' back back' : List Symbol}
    (all : ∀ symbol ∈ front, kind symbol = true) (all' : ∀ symbol ∈ front', kind symbol = true)
    (ends : ∀ symbol ∈ back.head?, kind symbol = false) (ends' : ∀ symbol ∈ back'.head?, kind symbol = false)
    (same : front ++ back = front' ++ back') : front = front' ∧ back = back' := by
  have fronts := congrArg (List.takeWhile kind) same
  rw [takeWhile_append all ends, takeWhile_append all' ends'] at fronts
  subst fronts
  exact ⟨rfl, List.append_cancel_left same⟩

end Words
