import MoshClient.Bootstrap.ConnectPattern

namespace MoshModel

inductive LineKind where
  | probe (rest : Text)
  | connect (line : Text)
  | remark (line : Text)

def lineKind (line : Text) : LineKind :=
  match connectionLead.isPrefixOf? (trimEndCr line) with
  | some rest => .probe rest
  | none => if connectLead.isPrefixOf (trimEndCr line) then .connect (trimEndCr line) else .remark (trimEndCr line)

def probes (lines : List Text) : List Text :=
  lines.filterMap fun line => match lineKind line with
    | .probe rest => some rest
    | _ => none

def connects (lines : List Text) : List Text :=
  lines.filterMap fun line => match lineKind line with
    | .connect line => some line
    | _ => none

def remarks (lines : List Text) : List Text :=
  lines.filterMap fun line => match lineKind line with
    | .remark line => some line
    | _ => none

/-- The third of the four words of a probe. -/
def probeAddress (rest : Text) : Option Text :=
  match splitWhitespace rest with
  | [_, _, serverIp, _] => some serverIp
  | _ => none

/-- The address of the probe lines, of which there may be one. -/
def readProbes : Option Text → List Text → Option (Option Text)
  | found, [] => some found
  | some _, _ :: _ => none
  | none, rest :: more =>
    match probeAddress rest with
    | some serverIp => readProbes (some serverIp) more
    | none => none

/-- The first connect line counts, and has to be good. -/
def readConnects (found : Option MoshBootstrap) (connects : List Text) : Option (Option MoshBootstrap) :=
  match found, connects with
  | some bootstrap, _ => some (some bootstrap)
  | none, [] => some none
  | none, line :: _ => (parseConnect line).toOption.map some

theorem lineKind_probe {line rest : Text} (kind : lineKind line = .probe rest) :
    connectionLead.isPrefixOf? (trimEndCr line) = some rest := by
  unfold lineKind at kind
  split at kind
  · cases kind
    assumption
  · split at kind <;> cases kind

theorem lineKind_connect {line connect : Text} (kind : lineKind line = .connect connect) :
    connectionLead.isPrefixOf? (trimEndCr line) = none ∧ connectLead.isPrefixOf (trimEndCr line) = true ∧
      connect = trimEndCr line := by
  unfold lineKind at kind
  split at kind
  · cases kind
  · split at kind
    · cases kind
      exact ⟨by assumption, by assumption, rfl⟩
    · cases kind

theorem lineKind_remark {line remark : Text} (kind : lineKind line = .remark remark) :
    connectionLead.isPrefixOf? (trimEndCr line) = none ∧ connectLead.isPrefixOf (trimEndCr line) ≠ true ∧
      remark = trimEndCr line := by
  unfold lineKind at kind
  split at kind
  · cases kind
  · split at kind
    · cases kind
    · cases kind
      exact ⟨by assumption, by assumption, rfl⟩

section Kinds

variable {line found : Text} {rest : List Text}

theorem probes_cons (line : Text) (rest : List Text) : probes (line :: rest) =
    (match lineKind line with | .probe found => [found] | _ => []) ++ probes rest := by
  unfold probes
  rw [List.filterMap_cons]
  cases lineKind line <;> rfl

theorem connects_cons (line : Text) (rest : List Text) : connects (line :: rest) =
    (match lineKind line with | .connect found => [found] | _ => []) ++ connects rest := by
  unfold connects
  rw [List.filterMap_cons]
  cases lineKind line <;> rfl

theorem remarks_cons (line : Text) (rest : List Text) : remarks (line :: rest) =
    (match lineKind line with | .remark found => [found] | _ => []) ++ remarks rest := by
  unfold remarks
  rw [List.filterMap_cons]
  cases lineKind line <;> rfl

end Kinds

namespace Scan

variable {scan last : Scan} {line : Text} {rest : List Text}

theorem line_probe {found : Text} (kind : lineKind line = .probe found) :
    scan.line line = match probeAddress found with
      | some serverIp =>
        if scan.serverIp.isSome then .error (.badConnection "attempt to redefine MOSH SSH_CONNECTION".toList)
        else .ok { scan with serverIp := some serverIp }
      | none => .error (.badConnection (trimEndCr line)) := by
  simp only [Scan.line, lineKind_probe kind, probeAddress]
  generalize splitWhitespace found = words
  match words with
  | [] | [_] | [_, _] | [_, _, _] | [_, _, _, _] | _ :: _ :: _ :: _ :: _ :: _ => rfl

/-- What a scan comes to, one kind of line at a time. -/
theorem lines_eq_ok (scan last : Scan) (rest : List Text) :
    scan.lines rest = .ok last ↔ readProbes scan.serverIp (probes rest) = some last.serverIp ∧
      readConnects scan.bootstrap (connects rest) = some last.bootstrap ∧
      last.informational = scan.informational ++ remarks rest := by
  induction rest generalizing scan with
  | nil =>
    obtain ⟨serverIp, bootstrap, informational⟩ := scan
    obtain ⟨lastIp, lastBootstrap, lastInformational⟩ := last
    simp only [Scan.lines, probes, connects, remarks, List.filterMap_nil, readProbes, List.append_nil,
      Except.ok.injEq, Scan.mk.injEq]
    cases bootstrap <;> simp [readConnects, eq_comm]
  | cons line rest ih =>
    rw [Scan.lines, probes_cons, connects_cons, remarks_cons]
    cases kind : lineKind line with
    | probe found =>
      rw [line_probe kind, List.cons_append, List.nil_append, List.nil_append, List.nil_append]
      cases known : scan.serverIp with
      | some serverIp => cases probeAddress found <;> simp [readProbes]
      | none =>
        cases address : probeAddress found with
        | none => simp [readProbes, address]
        | some serverIp =>
          rw [readProbes, address]
          exact ih _
    | connect found =>
      obtain ⟨probe, lead, rfl⟩ := lineKind_connect kind
      simp only [Scan.line, probe, lead, if_true, List.nil_append, List.cons_append]
      cases known : scan.bootstrap with
      | some bootstrap =>
        dsimp only
        rw [ih, known]
        rfl
      | none =>
        cases read : parseConnect (trimEndCr line) with
        | error e => simp [readConnects, read, Except.toOption]
        | ok bootstrap =>
          dsimp only
          rw [ih]
          simp [readConnects, read, Except.toOption]
    | remark found =>
      obtain ⟨probe, lead, rfl⟩ := lineKind_remark kind
      simp only [Scan.line, probe, lead, List.nil_append, List.cons_append]
      rw [if_neg Bool.false_ne_true]
      dsimp only
      rw [ih, List.append_assoc]
      rfl

theorem lines_eq_error {scan : Scan} {rest : List Text} {error : MoshBootstrapError}
    (failed : scan.lines rest = .error error) :
    (∃ text, error = .badConnection text) ∨
      scan.bootstrap = none ∧ ∃ line, (connects rest).head? = some line ∧ parseConnect line = .error error := by
  induction rest generalizing scan with
  | nil => cases failed
  | cons line rest ih =>
    rw [Scan.lines] at failed
    rw [connects_cons]
    cases kind : lineKind line with
    | probe found =>
      rw [line_probe kind] at failed
      cases address : probeAddress found with
      | none =>
        rw [address] at failed
        exact .inl ⟨_, (Except.error.inj failed).symm⟩
      | some serverIp =>
        rw [address] at failed
        by_cases known : scan.serverIp.isSome = true
        · simp only [if_pos known] at failed
          exact .inl ⟨_, (Except.error.inj failed).symm⟩
        · simp only [if_neg known] at failed
          have later := ih failed
          exact later
    | connect found =>
      obtain ⟨probe, lead, rfl⟩ := lineKind_connect kind
      simp only [Scan.line, probe, lead, if_true] at failed
      cases known : scan.bootstrap with
      | some bootstrap =>
        rw [known] at failed
        rcases ih failed with probed | ⟨unknown, -⟩
        · exact .inl probed
        · rw [known] at unknown
          cases unknown
      | none =>
        rw [known] at failed
        cases read : parseConnect (trimEndCr line) with
        | error e =>
          rw [read] at failed
          cases failed
          exact .inr ⟨rfl, _, rfl, read⟩
        | ok bootstrap =>
          rw [read] at failed
          rcases ih failed with probed | ⟨unknown, -⟩
          · exact .inl probed
          · cases unknown
    | remark found =>
      obtain ⟨probe, lead, rfl⟩ := lineKind_remark kind
      simp only [Scan.line, probe, if_neg lead] at failed
      have later := ih failed
      exact later

end Scan

theorem parseConnect_error {line : Text} {error : MoshBootstrapError} (failed : parseConnect line = .error error) :
    error = .badConnect line := by
  unfold parseConnect at failed
  split at failed
  · split at failed
    · exact (Except.error.inj failed).symm
    · split at failed
      · exact (Except.error.inj failed).symm
      · cases failed
  · exact (Except.error.inj failed).symm

/-- The output has at most one probe line, and it gives the address. -/
def Probed (output : Text) (serverIp : Option Text) : Prop :=
  (probes (lines output)).map probeAddress = serverIp.toList.map some

theorem readProbes_iff (probes : List Text) (serverIp : Option Text) :
    readProbes none probes = some serverIp ↔ probes.map probeAddress = serverIp.toList.map some := by
  match probes with
  | [] => cases serverIp <;> simp [readProbes]
  | [rest] =>
    cases address : probeAddress rest <;> cases serverIp <;> simp [readProbes, address]
  | rest :: other :: more =>
    cases address : probeAddress rest <;> cases serverIp <;> simp [readProbes, address]

theorem readConnects_iff (connects : List Text) (bootstrap : MoshBootstrap) :
    readConnects none connects = some (some bootstrap) ↔
      ∃ line, connects.head? = some line ∧ parseConnect line = .ok bootstrap := by
  cases connects with
  | nil => simp [readConnects]
  | cons line rest =>
    cases read : parseConnect line <;> simp [readConnects, read, Except.toOption]

theorem readConnects_none (connects : List Text) : readConnects none connects = some none ↔ connects = [] := by
  cases connects with
  | nil => simp [readConnects]
  | cons line rest =>
    cases read : parseConnect line <;> simp [readConnects, read, Except.toOption]

theorem outputTail_short (output : Text) : (outputTail output).length ≤ 401 := by
  unfold outputTail
  split
  · simp only [List.length_cons, List.length_reverse, List.length_take]
    omega
  · omega

theorem scan_eq_ok (output : Text) (last : Scan) :
    Scan.start.lines (lines output) = .ok last ↔ Probed output last.serverIp ∧
      readConnects none (connects (lines output)) = some last.bootstrap ∧
      last.informational = remarks (lines output) := by
  rw [Scan.lines_eq_ok, Scan.start]
  dsimp only
  rw [readProbes_iff, List.nil_append]
  rfl

theorem parse_kinds_ok (output : Text) (bootstrap : MoshBootstrap) :
    parseMoshBootstrap output = .ok bootstrap ↔ Probed output bootstrap.serverIp ∧
      ∃ line, (connects (lines output)).head? = some line ∧
        parseConnect line = .ok { bootstrap with serverIp := none } := by
  constructor
  · intro parsed
    unfold parseMoshBootstrap at parsed
    cases ends : Scan.start.lines (lines output) with
    | error e =>
      rw [ends] at parsed
      cases parsed
    | ok last =>
      obtain ⟨probed, read, -⟩ := (scan_eq_ok output last).mp ends
      rw [ends] at parsed
      cases known : last.bootstrap with
      | none => simp [known] at parsed
      | some found =>
        simp only [known] at parsed
        cases parsed
        rw [known, readConnects_iff] at read
        obtain ⟨line, first, good⟩ := read
        obtain ⟨-, -, -, -, -, -, unset⟩ := (parseConnect_eq_ok line found).mp good
        refine ⟨probed, line, first, ?_⟩
        rw [good]
        dsimp only
        rw [← unset]
  · rintro ⟨probed, line, first, good⟩
    have ends : Scan.start.lines (lines output) =
        .ok (Scan.mk bootstrap.serverIp (some { bootstrap with serverIp := none }) (remarks (lines output))) :=
      (scan_eq_ok output _).mpr ⟨probed, (readConnects_iff _ _).mpr ⟨line, first, good⟩, rfl⟩
    rw [parseMoshBootstrap, ends]

theorem parse_kinds_none (output text : Text) :
    parseMoshBootstrap output = .error (.noConnect text) ↔ (∃ serverIp, Probed output serverIp) ∧
      connects (lines output) = [] ∧ text = outputTail ("\n".toList.intercalate (remarks (lines output))) := by
  constructor
  · intro failed
    unfold parseMoshBootstrap at failed
    cases ends : Scan.start.lines (lines output) with
    | error e =>
      rw [ends] at failed
      cases failed
      rcases Scan.lines_eq_error ends with ⟨_, same⟩ | ⟨-, line, -, read⟩
      · cases same
      · cases parseConnect_error read
    | ok last =>
      obtain ⟨probed, read, remarked⟩ := (scan_eq_ok output last).mp ends
      rw [ends] at failed
      cases known : last.bootstrap with
      | some found => simp [known] at failed
      | none =>
        rw [known, readConnects_none] at read
        simp only [known, remarked] at failed
        cases failed
        exact ⟨⟨_, probed⟩, read, rfl⟩
  · rintro ⟨⟨serverIp, probed⟩, empty, rfl⟩
    have ends : Scan.start.lines (lines output) = .ok (Scan.mk serverIp none (remarks (lines output))) :=
      (scan_eq_ok output _).mpr ⟨probed, (readConnects_none _).mpr empty, rfl⟩
    rw [parseMoshBootstrap, ends]

theorem parse_kinds_bad {output line : Text} (failed : parseMoshBootstrap output = .error (.badConnect line)) :
    (connects (lines output)).head? = some line ∧ parseConnect line = .error (.badConnect line) := by
  unfold parseMoshBootstrap at failed
  cases ends : Scan.start.lines (lines output) with
  | error e =>
    rw [ends] at failed
    cases failed
    rcases Scan.lines_eq_error ends with ⟨_, same⟩ | ⟨-, other, first, read⟩
    · cases same
    · cases parseConnect_error read
      exact ⟨first, read⟩
  | ok last =>
    rw [ends] at failed
    cases known : last.bootstrap <;> simp [known] at failed

/-- The lines of an output are read by their kinds, in whatever order these come: the address from the one probe
    line, port and key from the first connect line, and without one the rest is told, cut to its end. -/
theorem bootstrap_reads_kinds (output : Text) :
    (∀ bootstrap, parseMoshBootstrap output = .ok bootstrap ↔ Probed output bootstrap.serverIp ∧
        ∃ line, (connects (lines output)).head? = some line ∧
          parseConnect line = .ok { bootstrap with serverIp := none }) ∧
      (∀ text, parseMoshBootstrap output = .error (.noConnect text) ↔ (∃ serverIp, Probed output serverIp) ∧
        connects (lines output) = [] ∧ text = outputTail ("\n".toList.intercalate (remarks (lines output)))) ∧
      (∀ text, parseMoshBootstrap output = .error (.noConnect text) → text.length ≤ 401) ∧
      ∀ line, parseMoshBootstrap output = .error (.badConnect line) →
        (connects (lines output)).head? = some line ∧ parseConnect line = .error (.badConnect line) := by
  refine ⟨parse_kinds_ok output, parse_kinds_none output, ?_, fun line failed => parse_kinds_bad failed⟩
  intro text failed
  rw [((parse_kinds_none output text).mp failed).2.2]
  exact outputTail_short _

/-- A banner, the probe behind the connect line, and a second connect line that is no longer looked at. -/
example : parseMoshBootstrap
    "hello\nMOSH CONNECT 60001 AAAAAAAAAAAAAAAAAAAAAA\nMOSH SSH_CONNECTION 10.0.0.1 5 10.0.0.2 22\nMOSH CONNECT x".toList =
      .ok { serverIp := some "10.0.0.2".toList, port := 60001, key := "AAAAAAAAAAAAAAAAAAAAAA".toList } := by
  decide +kernel

end MoshModel
