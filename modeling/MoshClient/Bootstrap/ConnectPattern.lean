import MoshClient.Bootstrap.ConnectLine

namespace MoshModel

open Words

/-- What `\s` stands for in a pattern over bytes and in one over characters. -/
inductive Alphabet where
  | ascii
  | unicode
deriving DecidableEq

def Alphabet.isSpace : Alphabet → Char → Bool
  | .ascii, c => c = ' ' || (9 ≤ c.toNat && c.toNat ≤ 13)
  | .unicode, c => isWhitespace c

def MatchesPattern (alphabet : Alphabet) (line : Text) (port : UInt16) (key : Text) : Prop :=
  ∃ digits after, line = connectLead ++ (digits ++ ([' '] ++ (key ++ after))) ∧ PortKey digits key ∧
    (∀ c ∈ after, alphabet.isSpace c = true) ∧ port.toNat = portNumber digits

/-- A spelling that is read and that the pattern has no place for: white space before the port, a plus
sign, other white space than one blank before the key, or white space at the end that is not `\s`. -/
def Lenient (alphabet : Alphabet) (line : Text) : Prop :=
  ∃ before sign digits between key after, line = spelled before sign digits between key after ∧
    Spelling before sign digits between key after ∧
    (before ≠ [] ∨ sign ≠ [] ∨ between ≠ [' '] ∨ ∃ c ∈ after, alphabet.isSpace c = false)

def firstConnect (output : Text) : Option Text := (lines output).find? (connectLead.isPrefixOf ·)

def WithoutConnection (output : Text) : Prop := ∀ line ∈ lines output, connectionLead.isPrefixOf line = false

/-- The first `MOSH CONNECT` line is read as the pattern reads it. -/
def ReadsPattern (alphabet : Alphabet) (output : Text) : Prop := ∀ port key,
  (∃ serverIp, parseMoshBootstrap output = .ok { serverIp := serverIp, port := port, key := key }) ↔
    ∃ line, firstConnect output = some line ∧ MatchesPattern alphabet line port key

-- The lines up to the first that counts.

variable {scan last : Scan} {line : Text} {rest : List Text}

theorem connection_trimEndCr (without : connectionLead.isPrefixOf line = false) :
    connectionLead.isPrefixOf? (trimEndCr line) = none := by
  cases starts : connectionLead.isPrefixOf? (trimEndCr line) with
  | none => rfl
  | some tail =>
    have whole := List.isPrefixOf?_eq_some_iff_append_eq.mp starts
    have lead := isPrefixOf_trimEndCr connectionLead line (by rw [← whole, List.isPrefixOf_iff_prefix]; exact ⟨_, rfl⟩)
    rw [without] at lead
    cases lead

theorem Scan.line_known {found : MoshBootstrap} (without : connectionLead.isPrefixOf line = false)
    (connect : connectLead.isPrefixOf line = true) (known : scan.bootstrap = some found) :
    scan.line line = .ok scan := by
  rw [← connectLead_trimEndCr] at connect
  simp only [Scan.line, connection_trimEndCr without, if_pos connect, known]

theorem Scan.line_first {found : MoshBootstrap} (without : connectionLead.isPrefixOf line = false)
    (connect : connectLead.isPrefixOf line = true) (unknown : scan.bootstrap = none)
    (read : parseConnect (trimEndCr line) = .ok found) :
    scan.line line = .ok { scan with bootstrap := some found } := by
  rw [← connectLead_trimEndCr] at connect
  simp only [Scan.line, connection_trimEndCr without, if_pos connect, unknown, read]

theorem Scan.line_bad {e : MoshBootstrapError} (without : connectionLead.isPrefixOf line = false)
    (connect : connectLead.isPrefixOf line = true) (unknown : scan.bootstrap = none)
    (read : parseConnect (trimEndCr line) = .error e) : scan.line line = .error e := by
  rw [← connectLead_trimEndCr] at connect
  simp only [Scan.line, connection_trimEndCr without, if_pos connect, unknown, read]

theorem Scan.line_other (without : connectionLead.isPrefixOf line = false)
    (other : connectLead.isPrefixOf line = false) :
    scan.line line = .ok { scan with informational := scan.informational ++ [trimEndCr line] } := by
  rw [← connectLead_trimEndCr] at other
  rw [Scan.line, connection_trimEndCr without, if_neg (by simp [other])]

/-- What is known after a scan: the first line that starts like a `MOSH CONNECT` line decides. -/
theorem Scan.lines_bootstrap (scan : Scan) (without : ∀ line ∈ rest, connectionLead.isPrefixOf line = false)
    (bootstrap : MoshBootstrap) : (∃ last, scan.lines rest = .ok last ∧ last.bootstrap = some bootstrap) ↔
      scan.bootstrap = some bootstrap ∨ (scan.bootstrap = none ∧ ∃ line, rest.find? (connectLead.isPrefixOf ·) = some line ∧
        parseConnect (trimEndCr line) = .ok bootstrap) := by
  induction rest generalizing scan with
  | nil => simp [Scan.lines]
  | cons line rest ih =>
    obtain ⟨here, later⟩ := List.forall_mem_cons.mp without
    rw [Scan.lines, List.find?_cons]
    cases connect : connectLead.isPrefixOf line with
    | false =>
      rw [Scan.line_other here connect]
      exact ih _ later
    | true =>
      cases known : scan.bootstrap with
      | some found =>
        rw [Scan.line_known here connect known]
        have same := ih scan later
        rw [known] at same
        simpa using same
      | none =>
        cases read : parseConnect (trimEndCr line) with
        | error e =>
          rw [Scan.line_bad here connect known read]
          simp [read]
        | ok found =>
          rw [Scan.line_first here connect known read]
          have same := ih { scan with bootstrap := some found } later
          simpa [read] using same

theorem Scan.line_serverIp {next : Scan} (without : connectionLead.isPrefixOf line = false)
    (read : scan.line line = .ok next) : next.serverIp = scan.serverIp := by
  cases connect : connectLead.isPrefixOf line with
  | false =>
    rw [Scan.line_other without connect] at read
    cases read
    rfl
  | true =>
    cases known : scan.bootstrap with
    | some found =>
      rw [Scan.line_known without connect known] at read
      cases read
      rfl
    | none =>
      cases parsed : parseConnect (trimEndCr line) with
      | error e =>
        rw [Scan.line_bad without connect known parsed] at read
        cases read
      | ok found =>
        rw [Scan.line_first without connect known parsed] at read
        cases read
        rfl

theorem Scan.lines_serverIp (without : ∀ line ∈ rest, connectionLead.isPrefixOf line = false)
    (ends : scan.lines rest = .ok last) : last.serverIp = scan.serverIp := by
  induction rest generalizing scan with
  | nil =>
    cases ends
    rfl
  | cons line rest ih =>
    obtain ⟨here, later⟩ := List.forall_mem_cons.mp without
    rw [Scan.lines] at ends
    cases read : scan.line line with
    | error e =>
      rw [read] at ends
      cases ends
    | ok next =>
      rw [read] at ends
      exact (ih later ends).trans (Scan.line_serverIp here read)

theorem parse_eq_ok {output : Text} (without : WithoutConnection output) (bootstrap : MoshBootstrap) :
    parseMoshBootstrap output = .ok bootstrap ↔
      ∃ line, firstConnect output = some line ∧ parseConnect (trimEndCr line) = .ok bootstrap := by
  have scanned := Scan.start.lines_bootstrap without bootstrap
  have first : (∃ last, Scan.start.lines (lines output) = .ok last ∧ last.bootstrap = some bootstrap) ↔
      ∃ line, firstConnect output = some line ∧ parseConnect (trimEndCr line) = .ok bootstrap := by
    rw [scanned]
    simp [Scan.start, firstConnect]
  rw [← first, parseMoshBootstrap]
  cases ends : Scan.start.lines (lines output) with
  | error e => simp
  | ok last =>
    have unset : last.serverIp = none := Scan.lines_serverIp without ends
    cases known : last.bootstrap with
    | none => simp [known]
    | some found =>
      have fresh : found.serverIp = none := by
        have decided := (Scan.start.lines_bootstrap without found).mp ⟨last, ends, known⟩
        simp only [Scan.start, reduceCtorEq, true_and, false_or] at decided
        obtain ⟨line, -, read⟩ := decided
        obtain ⟨-, -, -, -, -, -, none⟩ := (parseConnect_eq_ok _ _).mp read
        exact none
      simp [known, unset, ← fresh]

-- The spellings that agree.

theorem digit_unbroken {c : Char} (digit : c.isDigit = true) : isWhitespace c = false :=
  isKeyChar_unbroken c (isDigit_isKeyChar c digit)

theorem spelled_unique {digits key after before sign digits' between key' after' : Text} (strict : PortKey digits key)
    (spelling : Spelling before sign digits' between key' after')
    (same : connectLead ++ (digits ++ ([' '] ++ (key ++ after))) = spelled before sign digits' between key' after') :
    before = [] ∧ sign = [] ∧ between = [' '] ∧ after' = after := by
  have tails : digits ++ ([' '] ++ (key ++ after)) = before ++ (sign ++ digits' ++ (between ++ (key' ++ after'))) :=
    List.append_cancel_left same
  obtain ⟨first, others, rfl⟩ := List.exists_cons_of_ne_nil strict.nonempty
  have digit := strict.decimal first (List.mem_cons_self ..)
  have nothing : before = [] := by
    cases before with
    | nil => rfl
    | cons c before =>
      cases (List.cons.inj tails).1
      have space := spelling.before first (List.mem_cons_self ..)
      rw [digit_unbroken digit] at space
      cases space
  subst nothing
  have unsigned : sign = [] := by
    apply spelling.signed.resolve_right
    rintro rfl
    cases (List.cons.inj tails).1
    cases digit
  subst unsigned
  have stops : ∀ c ∈ (between ++ (key' ++ after')).head?, c.isDigit = false := by
    obtain ⟨space, spaces, rfl⟩ := List.exists_cons_of_ne_nil spelling.apart
    rintro _ ⟨⟩
    apply Bool.eq_false_iff.mpr
    intro inside
    have blank := spelling.between space (List.mem_cons_self ..)
    rw [digit_unbroken inside] at blank
    cases blank
  have blank : ∀ c ∈ ([' '] ++ (key ++ after)).head?, c.isDigit = false := by
    rintro _ ⟨⟩
    rfl
  have behind := (span_unique strict.decimal spelling.groups.decimal blank stops tails).2
  have one : ∀ c ∈ [' '], isWhitespace c = true := by simp [isWhitespace]
  have keys := span_unique one spelling.between (strict.key_word.head_append after)
    (spelling.groups.key_word.head_append after') behind
  have lengths : key.length = key'.length := strict.length.trans spelling.groups.length.symm
  exact ⟨rfl, rfl, keys.1.symm, (List.append_inj_right keys.2 lengths).symm⟩

theorem Alphabet.isSpace_isWhitespace (alphabet : Alphabet) (c : Char) (space : alphabet.isSpace c = true) :
    isWhitespace c = true := by
  cases alphabet with
  | ascii =>
    simp only [isSpace, Bool.or_eq_true, Bool.and_eq_true, decide_eq_true_eq] at space
    apply space.elim
    · rintro rfl
      rfl
    · intro control
      simp [isWhitespace, control]
  | unicode => exact space

theorem MatchesPattern.spelling {alphabet : Alphabet} {digits key after : Text} (groups : PortKey digits key)
    (spaces : ∀ c ∈ after, alphabet.isSpace c = true) : Spelling [] [] digits [' '] key after where
  groups := groups
  before := nofun
  signed := .inl rfl
  apart := List.cons_ne_nil _ _
  between := by simp [Gap, isWhitespace]
  after c member := alphabet.isSpace_isWhitespace c (spaces c member)

theorem firstConnect_lead {output line : Text} (first : firstConnect output = some line) :
    ∃ tail, line = connectLead ++ tail := by
  have starts := List.find?_some first
  obtain ⟨tail, whole⟩ := List.isPrefixOf_iff_prefix.mp starts
  exact ⟨tail, whole.symm⟩

theorem readsPattern_iff (alphabet : Alphabet) (output : Text) (without : WithoutConnection output) :
    ReadsPattern alphabet output ↔ ∀ line, firstConnect output = some line → ¬ Lenient alphabet line := by
  constructor
  · rintro exact line first ⟨before, sign, digits, between, key, after, rfl, spelling, loose⟩
    have value : (UInt16.ofNat (portNumber digits)).toNat = portNumber digits := by
      have fits := spelling.groups.fits
      rw [UInt16.toNat_ofNat']
      omega
    have read : parseMoshBootstrap output =
        .ok { serverIp := none, port := UInt16.ofNat (portNumber digits), key := key } := by
      rw [parse_eq_ok without]
      exact ⟨_, first, (parseConnect_connect _ _).mpr ⟨rfl, before, sign, digits, between, after, rfl, spelling, value⟩⟩
    obtain ⟨line, again, digits', after', whole, groups, spaces, -⟩ := (exact _ key).mp ⟨none, read⟩
    cases first.symm.trans again
    obtain ⟨nothing, unsigned, single, same⟩ := spelled_unique groups spelling whole.symm
    subst same
    obtain ⟨c, member, other⟩ := ((loose.resolve_left (· nothing)).resolve_left (· unsigned)).resolve_left (· single)
    rw [spaces c member] at other
    cases other
  · intro strict port key
    constructor
    · rintro ⟨serverIp, parsed⟩
      obtain ⟨line, first, read⟩ := (parse_eq_ok without _).mp parsed
      obtain ⟨tail, rfl⟩ := firstConnect_lead first
      obtain ⟨-, before, sign, digits, between, after, whole, spelling, value⟩ := (parseConnect_connect tail _).mp read
      have none : ¬ (before ≠ [] ∨ sign ≠ [] ∨ between ≠ [' '] ∨ ∃ c ∈ after, alphabet.isSpace c = false) :=
        fun loose => strict _ first ⟨before, sign, digits, between, key, after, whole, spelling, loose⟩
      simp only [not_or, Decidable.not_not, not_exists, not_and, Bool.not_eq_false] at none
      obtain ⟨rfl, rfl, rfl, spaces⟩ := none
      exact ⟨_, first, digits, after, whole, spelling.groups, spaces, value⟩
    · rintro ⟨line, first, digits, after, rfl, groups, spaces, value⟩
      refine ⟨none, (parse_eq_ok without _).mpr ⟨_, first, ?_⟩⟩
      rw [parseConnect_connect]
      exact ⟨rfl, [], [], digits, [' '], after, rfl, MatchesPattern.spelling groups spaces, value⟩

def pinnedOutput : Text := "MOSH CONNECT 60001 7l1cNvxYVkWP1j8zMC08Jg\n".toList

theorem pinned_groups : PortKey "60001".toList "7l1cNvxYVkWP1j8zMC08Jg".toList where
  nonempty := by decide
  decimal := List.all_eq_true.mp (by decide)
  fits := by decide
  length := by decide
  chars := List.all_eq_true.mp (by decide)

theorem readsPattern_iff_pinned : ReadsPattern .ascii pinnedOutput := by
  rw [readsPattern_iff .ascii pinnedOutput (by unfold WithoutConnection; decide)]
  rintro line first ⟨before, sign, digits, between, key, after, rfl, spelling, loose⟩
  have only : firstConnect pinnedOutput =
      some (connectLead ++ ("60001".toList ++ ([' '] ++ ("7l1cNvxYVkWP1j8zMC08Jg".toList ++ [])))) := rfl
  obtain ⟨nothing, unsigned, single, rfl⟩ := spelled_unique pinned_groups spelling (Option.some.inj (only.symm.trans first))
  obtain ⟨c, member, -⟩ := ((loose.resolve_left (· nothing)).resolve_left (· unsigned)).resolve_left (· single)
  cases member

def signedOutput : Text := "MOSH CONNECT +60001 7l1cNvxYVkWP1j8zMC08Jg\n".toList

theorem signedOutput_read : parseMoshBootstrap signedOutput =
    .ok { serverIp := none, port := 60001, key := "7l1cNvxYVkWP1j8zMC08Jg".toList } := by
  rfl

/-- A port with a plus sign is read, and the pattern has no match there in either alphabet. -/
theorem signed_port_read : WithoutConnection signedOutput ∧ ¬ ∃ alphabet, ReadsPattern alphabet signedOutput := by
  constructor
  · unfold WithoutConnection
    decide
  · rintro ⟨alphabet, exact⟩
    obtain ⟨line, first, digits, after, whole, groups, -⟩ := (exact _ _).mp ⟨none, signedOutput_read⟩
    have only : firstConnect signedOutput = some (connectLead ++ "+60001 7l1cNvxYVkWP1j8zMC08Jg".toList) := rfl
    rw [only, Option.some.injEq] at first
    obtain ⟨digit, others, rfl⟩ := List.exists_cons_of_ne_nil groups.nonempty
    have tails := List.append_cancel_left (first.trans whole)
    cases (List.cons.inj tails).1
    exact absurd (groups.decimal '+' (List.mem_cons_self ..)) (by decide)

end MoshModel
