import T81VM.VM.Printable

/-!
# Tools that read the output

The parity check runs a program in both modes and compares what it greps from
the outputs; the test harness looks for the state hash.  Both find what the
final state holds, and the parity check passes on every program.
-/

namespace T81VM.VM

open Tisc ProgramIo

/-! ## The parity check -/

/-- `grep '^start' file`. -/
def grep (start file : Text) : List Text :=
  (getlines file).filter start.isPrefixOf

/-- `grep '^start' file | head -n1`. -/
def grepFirst (start file : Text) : Text :=
  (grep start file).head?.getD []

/-- `grep '^start' file | tail -n1`. -/
def grepLast (start file : Text) : Text :=
  (grep start file).getLast?.getD []

/-- The bytes between the fields that `awk` splits a line into. -/
def isBlank (byte : UInt8) : Bool :=
  byte == 32 || byte == 9

/-- `awk '{print $2}'` of one line. -/
def secondField (line : Text) : Text :=
  let first := line.dropWhile isBlank
  let behind := (first.dropWhile fun byte => !isBlank byte).dropWhile isBlank
  behind.takeWhile fun byte => !isBlank byte

def extractTrapClass (file : Text) : Text :=
  secondField (grepFirst (text "FAULT ") file)

def extractTrapPayload (file : Text) : Text :=
  grepFirst (text "TRAP_PAYLOAD ") file

/-- The signals the contract requires to be equal. -/
structure Signals where
  stateHash : Text
  trapClass : Text
  trapPayload : Text
  deriving DecidableEq

/-- The signals of a run, from both of its streams. -/
def signals (output : Output) : Signals :=
  let all := output.out ++ output.err
  { stateHash := grepLast (text "STATE_HASH ") output.out
    trapClass := extractTrapClass all
    trapPayload := extractTrapPayload all }

/-- The arguments of a run in one of the modes. -/
def parityArgs (mode path : Text) : List Text :=
  [text "--snapshot", text "--mode", mode, path]

/-- `vector_ok`, for the outputs in the interpreter and the preview mode. -/
def vectorOk (int acc : Output) : Bool :=
  int.code == acc.code && signals int == signals acc
    && !(grep (text "MODE accelerated-preview") acc.err).isEmpty

/-! ## The test harness -/

/-- The line boundaries of `str.splitlines` in ASCII. -/
def isLineBoundary (byte : UInt8) : Bool :=
  (10 ≤ byte && byte ≤ 13) || (28 ≤ byte && byte ≤ 30)

/-- `str.splitlines`; a carriage return and a line feed are one boundary. -/
def splitlines : Text → List Text
  | [] => []
  | 13 :: 10 :: rest => [] :: splitlines rest
  | byte :: rest =>
      if isLineBoundary byte then [] :: splitlines rest
      else
        match splitlines rest with
        | [] => [[byte]]
        | line :: lines => (byte :: line) :: lines

/-- `line.split(" ", 1)[1].strip()`, for a line with a space. -/
def behindSpace (line : Text) : Text :=
  trim ((line.dropWhile fun byte => !isByte ' ' byte).drop 1)

/-- `extract_state_hash`, or nothing when the assertion fails. -/
def extractStateHash (stdout : Text) : Option Text :=
  ((splitlines stdout).find? (text "STATE_HASH ").isPrefixOf).map behindSpace

/-- The arguments of `run_vm`. -/
def runVmArgs (path : Text) : List Text :=
  [text "--trace", text "--snapshot", path]

/-! ## Labels -/

/-- Neither label is the start of the other. -/
def Differs (start label : Text) : Prop :=
  ¬ start <+: label ∧ ¬ label <+: start

instance (start label : Text) : Decidable (Differs start label) :=
  inferInstanceAs (Decidable (_ ∧ _))

/-- A line under another label than the one looked for. -/
theorem isPrefixOf_eq_false {start label line : Text}
    (labelled : label <+: line) (differs : Differs start label) :
    start.isPrefixOf line = false := by
  rw [Bool.eq_false_iff, ne_eq, List.isPrefixOf_iff_prefix]
  intro starts
  rcases List.prefix_or_prefix_of_prefix starts labelled with one | other
  · exact differs.1 one
  · exact differs.2 other

/-- A line under a label that starts as is looked for. -/
theorem isPrefixOf_eq_true {start label line : Text}
    (labelled : label <+: line) (starts : start <+: label) :
    start.isPrefixOf line = true :=
  List.isPrefixOf_iff_prefix.mpr (starts.trans labelled)

theorem snapshotLine_isPrefix (state : State) :
    text "SNAPSHOT pc=" <+: snapshotLine state := by
  unfold snapshotLine
  simp only [List.append_assoc]
  exact List.prefix_append _ _

theorem registersLine_isPrefix (registers : RegisterFile Int64) :
    text "REGISTERS" <+: registersLine registers :=
  List.prefix_append _ _

theorem stateHashLine_isPrefix (state : State) :
    text "STATE_HASH 0x" <+: stateHashLine state :=
  List.prefix_append _ _

/-- A line of the trace begins with a digit. -/
theorem traceLine_head (entry : TraceEntry) {byte : UInt8}
    (head : (traceLine entry).head? = some byte) :
    Decimal.isDigit byte = true := by
  have visible := Decimal.natural_ne_nil entry.pc
  unfold traceLine at head
  simp only [List.append_assoc] at head
  rw [List.head?_append_of_ne_nil _ visible] at head
  exact Decimal.natural_isDigit entry.pc byte (List.mem_of_mem_head? head)

variable {host : Host} {files : Text → Option Text} {path mode : Text}
  {options : Options} {output : Output} {result : Expected}
  {final : Interpreter}

/-- No line of the trace begins with a letter. -/
theorem grep_trace {start : Text} {byte : UInt8}
    (head : start.head? = some byte) (letter : Decimal.isDigit byte = false)
    (trace : List TraceEntry) :
    (trace.map traceLine).filter start.isPrefixOf = [] := by
  rw [List.filter_eq_nil_iff]
  intro line member starts
  obtain ⟨entry, _, rfl⟩ := List.mem_map.mp member
  obtain ⟨rest, same⟩ := List.isPrefixOf_iff_prefix.mp starts
  obtain ⟨tail, rfl⟩ := List.head?_eq_some_iff.mp head
  have first : (traceLine entry).head? = some byte := by
    rw [← same]
    rfl
  have digit := traceLine_head entry first
  rw [letter] at digit
  cases digit

/-- A payload line is found under its own label only. -/
theorem grep_trapPayloadLines {start : Text}
    (differs : Differs start (text "TRAP_PAYLOAD ")) (state : State) :
    (trapPayloadLines state).filter start.isPrefixOf = [] := by
  rw [List.filter_eq_nil_iff]
  intro line member
  obtain ⟨payload, _, rfl⟩ := List.mem_map.mp member
  rw [isPrefixOf_eq_false (payloadLine_isPrefix payload) differs]
  exact Bool.false_ne_true

theorem grep_trapPayloadLines_self (state : State) :
    (trapPayloadLines state).filter (text "TRAP_PAYLOAD ").isPrefixOf =
      trapPayloadLines state := by
  rw [List.filter_eq_self]
  intro line member
  obtain ⟨payload, _, rfl⟩ := List.mem_map.mp member
  exact List.isPrefixOf_iff_prefix.mpr (payloadLine_isPrefix payload)

/-- What is found in a snapshot, apart from its first two lines. -/
theorem grep_snapshotLines {start : Text} (state : State)
    (pc : Differs start (text "SNAPSHOT pc="))
    (registers : Differs start (text "REGISTERS")) :
    (snapshotLines state).filter start.isPrefixOf =
      (trapPayloadLines state).filter start.isPrefixOf
        ++ [stateHashLine state].filter start.isPrefixOf := by
  have first := isPrefixOf_eq_false (snapshotLine_isPrefix state) pc
  have second := isPrefixOf_eq_false
    (registersLine_isPrefix state.registers) registers
  rw [snapshotLines, List.filter_cons_of_neg (by simp [first]),
    List.filter_cons_of_neg (by simp [second]), List.filter_append]

theorem grep_snapshotLines_stateHash (state : State) :
    (snapshotLines state).filter (text "STATE_HASH ").isPrefixOf =
      [stateHashLine state] := by
  have hash : (text "STATE_HASH ").isPrefixOf (stateHashLine state) = true :=
    isPrefixOf_eq_true (stateHashLine_isPrefix state) (by decide)
  rw [grep_snapshotLines state (by decide) (by decide),
    grep_trapPayloadLines (by decide)]
  simp [hash]

theorem grep_snapshotLines_fault (state : State) :
    (snapshotLines state).filter (text "FAULT ").isPrefixOf = [] := by
  have hash : (text "FAULT ").isPrefixOf (stateHashLine state) = false :=
    isPrefixOf_eq_false (stateHashLine_isPrefix state) (by decide)
  rw [grep_snapshotLines state (by decide) (by decide),
    grep_trapPayloadLines (by decide)]
  simp [hash]

theorem grep_snapshotLines_trapPayload (state : State) :
    (snapshotLines state).filter (text "TRAP_PAYLOAD ").isPrefixOf =
      trapPayloadLines state := by
  have hash : (text "TRAP_PAYLOAD ").isPrefixOf (stateHashLine state) =
      false :=
    isPrefixOf_eq_false (stateHashLine_isPrefix state) (by decide)
  rw [grep_snapshotLines state (by decide) (by decide),
    grep_trapPayloadLines_self]
  simp [hash]

/-- The marker is the only line of its kind. -/
theorem grep_markerLines {start : Text}
    (differs : Differs start (text "MODE accelerated-preview")) :
    (markerLines mode).filter start.isPrefixOf = [] := by
  unfold markerLines
  split
  · have labelled : text "MODE accelerated-preview" <+:
        text "MODE accelerated-preview (preview): using interpreter backend" :=
      by decide
    simp [isPrefixOf_eq_false labelled differs]
  · rfl

theorem grep_errLines_fault (state : State) (code : Trap) :
    (errLines options (.error code) state).filter
      (text "FAULT ").isPrefixOf = [text "FAULT " ++ code.name] := by
  have found : (text "FAULT ").isPrefixOf (text "FAULT " ++ code.name) =
      true :=
    List.isPrefixOf_iff_prefix.mpr (List.prefix_append _ _)
  rw [errLines, faultLines, List.filter_append,
    grep_markerLines (by decide), List.nil_append,
    List.filter_cons_of_pos found, grep_trapPayloadLines (by decide)]

theorem grep_errLines_trapPayload (state : State) (code : Trap) :
    (errLines options (.error code) state).filter
      (text "TRAP_PAYLOAD ").isPrefixOf = trapPayloadLines state := by
  have other : (text "TRAP_PAYLOAD ").isPrefixOf
      (text "FAULT " ++ code.name) = false :=
    isPrefixOf_eq_false (List.prefix_append _ _) (by decide)
  rw [errLines, faultLines, List.filter_append,
    grep_markerLines (by decide), List.nil_append,
    List.filter_cons_of_neg (by simp [other]), grep_trapPayloadLines_self]

/-! ## What the tools find -/

/-- The class the parity check finds for a result. -/
def trapClassOf : Expected → Text
  | .ok () => []
  | .error code => code.name

theorem secondField_fault (code : Trap) :
    secondField (text "FAULT " ++ code.name) = code.name := by
  cases code <;> rfl

/-- The first payload line found, in a snapshot and on standard error. -/
theorem firstPayloadLine (state : State) (again : Bool) :
    ((trapPayloadLines state
      ++ if again then trapPayloadLines state else []).head?).getD [] =
        trapPayloadSummaryLine state := by
  unfold trapPayloadLines trapPayloadSummaryLine
  cases state.lastTrapPayload <;> cases again <;> simp

theorem getlines_append {first second : List Text}
    (clean : ∀ line ∈ first, OneLine line)
    (clean' : ∀ line ∈ second, OneLine line) :
    getlines (first.flatMap (· ++ text "\n")
      ++ second.flatMap (· ++ text "\n")) = first ++ second := by
  rw [← List.flatMap_append]
  apply getlines_flatMap
  exact List.forall_mem_append.mpr ⟨clean, clean'⟩

/-- The signals of a snapshot are those of the final state. -/
theorem signals_report (printable : final.DetailPrintable)
    (noTrace : options.emitTrace = false)
    (snapshot : options.emitSnapshot = true) :
    signals (report options result final.state) =
      { stateHash := stateHashLine final.state
        trapClass := trapClassOf result
        trapPayload := trapPayloadSummaryLine final.state } := by
  have lines : outLines options final.state = snapshotLines final.state := by
    simp [outLines, noTrace, snapshot]
  have both : getlines ((report options result final.state).out
      ++ (report options result final.state).err) =
        snapshotLines final.state
          ++ errLines options result final.state := by
    rw [report_out, report_err, lines]
    apply getlines_append _ (errLines_oneLine _)
    intro line member
    exact (printable_snapshotLines printable line member).oneLine
  have hash : grepLast (text "STATE_HASH ")
      (report options result final.state).out =
        stateHashLine final.state := by
    rw [grepLast, grep, getlines_report_out printable, lines,
      grep_snapshotLines_stateHash]
    rfl
  have first : ∀ start, grepFirst start
      ((report options result final.state).out
        ++ (report options result final.state).err) =
      (((snapshotLines final.state).filter start.isPrefixOf
        ++ (errLines options result final.state).filter
          start.isPrefixOf).head?).getD [] := by
    intro start
    rw [grepFirst, grep, both, List.filter_append]
  rw [signals, hash, extractTrapClass, extractTrapPayload, first, first,
    grep_snapshotLines_fault, grep_snapshotLines_trapPayload]
  cases result with
  | ok =>
      have marker : ∀ {start},
          Differs start (text "MODE accelerated-preview") →
          (errLines options (.ok ()) final.state).filter
            start.isPrefixOf = [] := by
        intro start differs
        rw [errLines, faultLines, List.append_nil, grep_markerLines differs]
      have payload : (trapPayloadLines final.state ++ []).head?.getD [] =
          trapPayloadSummaryLine final.state :=
        firstPayloadLine final.state false
      rw [marker (by decide), marker (by decide), payload]
      rfl
  | error code =>
      have named : secondField
          (([text "FAULT " ++ code.name] : List Text).head?.getD []) =
            code.name := secondField_fault code
      have payload : (trapPayloadLines final.state
          ++ trapPayloadLines final.state).head?.getD [] =
            trapPayloadSummaryLine final.state :=
        firstPayloadLine final.state true
      rw [grep_errLines_fault, grep_errLines_trapPayload, List.nil_append,
        named, payload]
      rfl

/-! ## Command lines that end in a path -/

/-- Items that set no path are read, and what follows them. -/
theorem readArguments_front {front : List Argument} {rest : List Text}
    (valid : ∀ item ∈ front, item.Valid)
    (noPath : ∀ item ∈ front, item.path? = none) :
    readArguments (front.flatMap Argument.words ++ rest) options =
      readArguments rest (optionsFrom options front) := by
  induction front generalizing options with
  | nil => rw [optionsFrom_nil, List.flatMap_nil, List.nil_append]
  | cons item front induction =>
      obtain ⟨here, others⟩ := List.forall_mem_cons.mp valid
      obtain ⟨free, later⟩ := List.forall_mem_cons.mp noPath
      rw [List.flatMap_cons, List.append_assoc,
        readArguments_item here fun some => absurd free some,
        induction others later, ← optionsFrom_cons]

/-- Such items leave the path unset. -/
theorem programPath_optionsFrom {front : List Argument}
    (noPath : ∀ item ∈ front, item.path? = none) :
    (optionsFrom {} front).programPath = [] := by
  have none : front.filterMap Argument.path? = [] :=
    List.filterMap_eq_nil_iff.mpr noPath
  rw [optionsFrom, none]
  rfl

/-- A last argument that names the file is a path. -/
theorem valid_path_of_readArguments
    {last : Options}
    (accepted : readArguments [path] options = some last)
    (unset : options.programPath = []) (named : last.programPath ≠ []) :
    (Argument.path path).Valid := by
  intro dashed
  simp only [readArguments, dashed, if_true] at accepted
  split at accepted
  · cases accepted
    exact named unset
  split at accepted
  · cases accepted
    exact named unset
  split at accepted
  · cases accepted
  split at accepted <;> cases accepted

/-- A command line that ends in a path names it. -/
theorem names_path_iff {front : List Argument}
    (valid : ∀ item ∈ front, item.Valid)
    (noPath : ∀ item ∈ front, item.path? = none) :
    Names (front.flatMap Argument.words ++ [path]) options ↔
      ((Argument.path path).Valid ∧ path ≠ []) ∧
        options = { optionsFrom {} front with programPath := path } := by
  have unset := programPath_optionsFrom noPath
  have reads : (Argument.path path).Valid →
      readArguments [path] (optionsFrom {} front) =
        some { optionsFrom {} front with programPath := path } := by
    intro visible
    have step : readArguments ((Argument.path path).words ++ [])
        (optionsFrom {} front) = _ :=
      readArguments_item visible fun _ => unset
    rw [optionsFrom_path] at step
    exact step
  rw [names_iff, readArguments_front valid noPath]
  constructor
  · rintro ⟨accepted, named⟩
    have visible := valid_path_of_readArguments accepted unset named
    rw [reads visible] at accepted
    cases accepted
    exact ⟨⟨visible, named⟩, rfl⟩
  · rintro ⟨⟨visible, nonempty⟩, rfl⟩
    exact ⟨reads visible, nonempty⟩

/-! ## The parity check passes -/

/-- The items of a run in one of the modes. -/
def parityItems (mode : Text) : List Argument :=
  [.snapshot, .mode mode]

theorem parityArgs_eq :
    parityArgs mode path =
      (parityItems mode).flatMap Argument.words ++ [path] := rfl

/-- The command line of a run in one of the modes. -/
theorem names_parityArgs_iff (known : (Argument.mode mode).Valid) :
    Names (parityArgs mode path) options ↔
      ((Argument.path path).Valid ∧ path ≠ []) ∧
        options = { optionsFrom {} (parityItems mode) with
          programPath := path } := by
  rw [parityArgs_eq]
  apply names_path_iff
  · intro item member
    rcases List.mem_pair.mp member with rfl | rfl
    · trivial
    · exact known
  · intro item member
    rcases List.mem_pair.mp member with rfl | rfl <;> rfl

/-- A file that holds a program gives the same evidence in both modes: the
check finds the state hash, the trap class and the payload of the final state
in either output, and passes. -/
structure ParityShown (host : Host) (files : Text → Option Text)
    (path : Text) (result : Expected) (final : Interpreter)
    (int acc : Output) : Prop where
  interpreter :
    main host files (parityArgs (text "interpreter") path) = .ok int
  preview :
    main host files (parityArgs (text "accelerated-preview") path) = .ok acc
  evidence : signals int =
    { stateHash := stateHashLine final.state
      trapClass := trapClassOf result
      trapPayload := trapPayloadSummaryLine final.state }
  passes : vectorOk int acc = true

/-- The parity check passes on every program whose run returns. -/
theorem parityShown
    (session : Session host files (parityArgs (text "interpreter") path)
      options result final) :
    ∃ int acc, ParityShown host files path result final int acc := by
  have printable := session.detailPrintable
  have interpreter := session.main_eq
  obtain ⟨names, loads, accepted, image, finished⟩ := session
  obtain ⟨visible, rfl⟩ := (names_parityArgs_iff (.inl rfl)).mp names
  have other : Names (parityArgs (text "accelerated-preview") path) _ :=
    (names_parityArgs_iff (.inr rfl)).mpr ⟨visible, rfl⟩
  have preview : Session host files
      (parityArgs (text "accelerated-preview") path) _ result final :=
    .intro other loads accepted image finished
  have found : ∀ mode, signals (report
      { optionsFrom {} (parityItems mode) with programPath := path }
        result final.state) =
      { stateHash := stateHashLine final.state
        trapClass := trapClassOf result
        trapPayload := trapPayloadSummaryLine final.state } :=
    fun mode => signals_report printable rfl rfl
  have marker : ∃ line ∈ errLines
      { optionsFrom {} (parityItems (text "accelerated-preview")) with
        programPath := path } result final.state,
      (text "MODE accelerated-preview").isPrefixOf line = true :=
    ⟨_, List.mem_append_left _ (List.mem_singleton_self _), by decide⟩
  refine ⟨_, _, interpreter, preview.main_eq, found _, ?_⟩
  rw [vectorOk, found, found, grep, getlines_report_err]
  obtain ⟨line, member, starts⟩ := marker
  have shown := List.mem_filter.mpr ⟨member, starts⟩
  have nonempty := List.ne_nil_of_mem shown
  simp [nonempty, report]

/-- The parity check on the program that traps. -/
theorem parityShown_trap :
    ∃ final int acc, ParityShown strictHost
      (oneFile (text "trap.t81") (text "TRAP\n")) (text "trap.t81")
      (.error .trapInstruction) final int acc := by
  have visible : (text "trap.t81").head? ≠ some '-'.toUInt8 := by decide
  have names : Names (parityArgs (text "interpreter") (text "trap.t81")) _ :=
    (names_parityArgs_iff (.inl rfl)).mpr ⟨⟨visible, by decide⟩, rfl⟩
  have session : Session strictHost
      (oneFile (text "trap.t81") (text "TRAP\n"))
      (parityArgs (text "interpreter") (text "trap.t81")) _
      (.error .trapInstruction) _ := .intro names rfl rfl rfl rfl
  obtain ⟨int, acc, shown⟩ := parityShown session
  exact ⟨_, int, acc, shown⟩

/-! ## The harness finds the hash -/

theorem splitlines_terminated {line rest : Text} (printable : Printable line) :
    splitlines (line ++ (text "\n" ++ rest)) = line :: splitlines rest := by
  induction line with
  | nil => rfl
  | cons byte line induction =>
      obtain ⟨here, others⟩ := List.forall_mem_cons.mp printable
      have inside : isLineBoundary byte = false := by
        simp only [isPrintable, isLineBoundary, Bool.and_eq_true,
          Bool.or_eq_false_iff, Bool.and_eq_false_iff, decide_eq_true_iff,
          decide_eq_false_iff_not, UInt8.le_iff_toNat_le,
          UInt8.reduceToNat] at here ⊢
        omega
      have noReturn : byte ≠ 13 := by
        rintro rfl
        exact absurd here (by decide)
      rw [List.cons_append, splitlines, induction others, inside]
      · rfl
      · intro _ same
        exact absurd same noReturn

theorem splitlines_flatMap {lines : List Text}
    (printable : ∀ line ∈ lines, Printable line) :
    splitlines (lines.flatMap (· ++ text "\n")) = lines := by
  induction lines with
  | nil => rfl
  | cons line lines induction =>
      obtain ⟨here, others⟩ := List.forall_mem_cons.mp printable
      rw [List.flatMap_cons, List.append_assoc, splitlines_terminated here,
        induction others]

/-- Behind the space of the line stands the hash. -/
theorem behindSpace_stateHashLine (state : State) :
    behindSpace (stateHashLine state) =
      text "0x" ++ Hexadecimal.padded 16 (stateHash state).toNat := by
  have label : ∀ byte ∈ text "0x", isSpace byte = false := by decide
  have visible : ∀ byte ∈ text "0x"
      ++ Hexadecimal.padded 16 (stateHash state).toNat,
      isSpace byte = false := by
    refine List.forall_mem_append.mpr ⟨label, fun byte member => ?_⟩
    have digit := Hexadecimal.padded_isDigit _ _ byte member
    have noSpace : byte ≠ ' '.toUInt8 := by
      rintro rfl
      exact absurd digit (by decide)
    rw [isSpace, beq_eq_false_iff_ne.mpr noSpace, Bool.false_or]
    simp only [Hexadecimal.isDigit, Bool.or_eq_true, Bool.and_eq_true,
      Bool.and_eq_false_iff, decide_eq_true_iff, decide_eq_false_iff_not,
      UInt8.le_iff_toNat_le, UInt8.reduceToNat] at digit ⊢
    omega
  have split : stateHashLine state = text "STATE_HASH" ++ (text " " ++
      (text "0x" ++ Hexadecimal.padded 16 (stateHash state).toNat)) := rfl
  have skipped : ∀ rest : Text, (text "STATE_HASH" ++ (text " " ++ rest)
      ).dropWhile (fun byte => !isByte ' ' byte) = text " " ++ rest :=
    fun _ => rfl
  rw [behindSpace, split, skipped]
  apply trim_eq_self
  · intro byte head
    exact visible byte (List.mem_of_mem_head? head)
  · intro byte last
    exact visible byte (List.mem_of_mem_getLast? last)

/-- The items of a run of the harness. -/
def runVmItems : List Argument :=
  [.trace, .snapshot]

theorem names_runVmArgs_iff :
    Names (runVmArgs path) options ↔
      ((Argument.path path).Valid ∧ path ≠ []) ∧
        options = { optionsFrom {} runVmItems with programPath := path } := by
  have split : runVmArgs path =
      runVmItems.flatMap Argument.words ++ [path] := rfl
  rw [split]
  apply names_path_iff
  · intro item member
    rcases List.mem_pair.mp member with rfl | rfl <;> trivial
  · intro item member
    rcases List.mem_pair.mp member with rfl | rfl <;> rfl

/-- The harness finds sixteen digits that denote the hash of the final state,
whatever the trace in front of them. -/
structure HarnessShown (output : Output) (state : State) : Prop where
  hash : ∃ digits, extractStateHash output.out = some (text "0x" ++ digits) ∧
    digits.length = 16 ∧ (∀ byte ∈ digits, Hexadecimal.isDigit byte = true) ∧
    Hexadecimal.value digits = (stateHash state).toNat

theorem harnessShown
    (returned : main host files (runVmArgs path) = .ok output)
    (session : Session host files (runVmArgs path) options result final) :
    HarnessShown output final.state := by
  have printable := session.detailPrintable
  rw [session.main_eq] at returned
  cases returned
  obtain ⟨names, _, _, _, _⟩ := session
  obtain ⟨_, rfl⟩ := names_runVmArgs_iff.mp names
  have lines : splitlines (report
      { optionsFrom {} runVmItems with programPath := path } result
        final.state).out =
      final.state.trace.map traceLine ++ snapshotLines final.state := by
    rw [report_out, splitlines_flatMap (printable_outLines printable)]
    rfl
  have found : (final.state.trace.map traceLine
      ++ snapshotLines final.state).find?
        (text "STATE_HASH ").isPrefixOf = some (stateHashLine final.state) := by
    rw [← List.head?_filter, List.filter_append,
      grep_trace rfl (by decide), grep_snapshotLines_stateHash]
    rfl
  refine ⟨_, ?_, Hexadecimal.length_padded (by omega) ?_,
    Hexadecimal.padded_isDigit 16 _, Hexadecimal.value_padded 16 _⟩
  · rw [extractStateHash, lines, found, Option.map_some,
      behindSpace_stateHashLine]
  · exact (stateHash final.state).toNat_lt

/-- The harness on the program that traps. -/
theorem harnessShown_trap :
    ∃ output final, main strictHost
        (oneFile (text "trap.t81") (text "TRAP\n"))
        (runVmArgs (text "trap.t81")) = .ok output ∧
      HarnessShown output final := by
  have visible : (text "trap.t81").head? ≠ some '-'.toUInt8 := by decide
  have names : Names (runVmArgs (text "trap.t81")) _ :=
    names_runVmArgs_iff.mpr ⟨⟨visible, by decide⟩, rfl⟩
  have session : Session strictHost
      (oneFile (text "trap.t81") (text "TRAP\n"))
      (runVmArgs (text "trap.t81")) _ (.error .trapInstruction) _ :=
    .intro names rfl rfl rfl rfl
  have returned := session.main_eq
  exact ⟨_, _, returned, harnessShown returned session⟩

end T81VM.VM
