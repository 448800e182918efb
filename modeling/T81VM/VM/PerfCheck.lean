import T81VM.Library.LineSearch
import T81VM.ProgramIo.RenderProgram
import T81VM.VM.Evidence
import T81VM.VM.HostChoice

/-!
# The performance check

The check writes the benchmark into a temporary directory, runs the command on
it a number of times and compares the state hashes that a regular expression
finds in the snapshots.  It passes on the budgets that suffice, with one hash
for each number of iterations.
-/

namespace T81VM.VM.PerfCheck

open Tisc ProgramIo GreedyRegex Excused

/-! ## Python's strings -/

/-- `str.isspace`, and `\s` of `re`, in ASCII. -/
def isPySpace (byte : UInt8) : Bool :=
  byte == 32 || (9 ≤ byte && byte ≤ 13) || (28 ≤ byte && byte ≤ 31)

/-- `str.strip`. -/
def strip (str : Text) : Text :=
  (str.dropWhile isPySpace).rdropWhile isPySpace

def isUpper (byte : UInt8) : Bool :=
  65 ≤ byte && byte ≤ 90

/-- `str.lower` in ASCII. -/
def lower (str : Text) : Text :=
  str.map fun byte => if isUpper byte then byte + 32 else byte

/-- What a text stream makes of the ends of lines. -/
def universalNewlines : Text → Text
  | [] => []
  | 13 :: 10 :: rest => 10 :: universalNewlines rest
  | 13 :: rest => 10 :: universalNewlines rest
  | byte :: rest => byte :: universalNewlines rest

/-- `sorted(set(strs))`. -/
def sortedSet (strs : List Text) : List Text :=
  strs.dedup.mergeSort fun first second => decide (first ≤ second)

/-- `repr` of strings without quotes. -/
def reprList (strs : List Text) : Text :=
  text "[" ++ (text ", ").intercalate
    (strs.map fun str => text "'" ++ str ++ text "'") ++ text "]"

/-! ## The check -/

/-- The class `[0-9a-fA-F]`. -/
def isHexDigit (byte : UInt8) : Bool :=
  Hexadecimal.isDigit byte || (65 ≤ byte && byte ≤ 70)

/-- The expression `STATE_HASH\s+(0x[0-9a-fA-F]+)\s*` between its anchors. -/
def stateHashRe : List (Piece UInt8) :=
  literal (text "STATE_HASH") ++
    [.plus isPySpace, .capture (literal (text "0x") ++ [.plus isHexDigit]),
      .star isPySpace]

/-- The entries of the baseline that decide about the hashes. -/
structure Baseline where
  iterations : Int
  maxSteps : Int
  warmupRuns : Int := 1
  measureRuns : Int := 5
  expectedStateHash : Text := []

/-- How the check ends without a report: it raises `SystemExit`, or a run of
the command has no result. -/
inductive Exit where
  | systemExit (message : Text)
  | aborted (abort : Abort)

def runVmArgs (programPath : Text) (maxSteps : Int) : List Text :=
  [text "--snapshot", text "--max-steps", Decimal.integer maxSteps,
    programPath]

/-- `run_vm` without the clock. -/
def runVm (host : Host) (files : Text → Option Text) (programPath : Text)
    (maxSteps : Int) : Except Exit Text :=
  match VM.main host files (runVmArgs programPath maxSteps) with
  | .error abort => .error (.aborted abort)
  | .ok proc =>
      if proc.code ≠ 0 then
        .error (.systemExit (text "vm run failed: rc="
          ++ Decimal.natural proc.code ++ text "\n"
          ++ strip (universalNewlines proc.err)))
      else
        match searchLines 10 stateHashRe (universalNewlines proc.out) with
        | none =>
            .error (.systemExit
              (text "missing STATE_HASH in snapshot output"))
        | some found => .ok (lower (found.captures.headD []))

/-- The files once the program is written. -/
def written (files : Text → Option Text) (directory : Text)
    (iterations : Int) (path : Text) : Option Text :=
  if path = benchmarkPath directory then some (renderProgram iterations)
  else files path

/-- What `main` checks of the hashes it measured. -/
def checkHashes (expectedHash : Text) (hashes : List Text) :
    Except Exit Text :=
  match sortedSet hashes with
  | [hash] =>
      if expectedHash ≠ [] ∧ hash ≠ expectedHash then
        .error (.systemExit
          (text "unexpected state hash for benchmark workload: got=" ++ hash
            ++ text " expected=" ++ expectedHash))
      else .ok hash
  | uniqueHashes =>
      .error (.systemExit (text "non-deterministic state hash in perf runs: "
        ++ reprList uniqueHashes))

/-- `main` up to the timings.  Every run of the command has a host of its
own. -/
def main (hosts : Nat → Host) (files : Text → Option Text)
    (directory : Text) (baseline : Baseline) : Except Exit Text := do
  let run := fun number =>
    runVm (hosts number) (written files directory baseline.iterations)
      (benchmarkPath directory) baseline.maxSteps
  let warmupRuns := baseline.warmupRuns.toNat
  let _ ← (List.range warmupRuns).mapM run
  let hashes ← (List.range' warmupRuns baseline.measureRuns.toNat).mapM run
  checkHashes (lower (strip baseline.expectedStateHash)) hashes

/-! ## The budget -/

/-- Reading a signed string of digits as an unsigned word. -/
theorem stoull_signed {negative : Bool} {sign digits : Text}
    (signed : Signed negative sign) (nonempty : digits ≠ [])
    (decimal : ∀ byte ∈ digits, Decimal.isDigit byte = true) :
    stoull (sign ++ digits) =
      if 2 ^ 64 ≤ Decimal.value digits then none
      else if negative then some (wrapSize (2 ^ 64 - Decimal.value digits))
      else some (Decimal.value digits) := by
  have visible : (sign ++ digits).dropWhile isSpace = sign ++ digits := by
    cases signed with
    | plus => rfl
    | minus => rfl
    | plain =>
        obtain ⟨digit, others, rfl⟩ := List.exists_cons_of_ne_nil nonempty
        obtain ⟨_, _, shown⟩ :=
          isDigit_range digit (decimal digit List.mem_cons_self)
        rw [List.nil_append]
        exact List.dropWhile_cons_of_neg (by simp [shown])
  have split : splitSign (sign ++ digits ++ []) = _ :=
    splitSign_signed signed nonempty decimal
  have taken : digits.takeWhile Decimal.isDigit = digits :=
    List.takeWhile_eq_self_iff.mpr decimal
  rw [List.append_nil, List.append_nil] at split
  simp [stoull, visible, split, taken, nonempty]

/-- A decimal argument is read back modulo the word size. -/
theorem stoull_integer (number : Int) :
    stoull (Decimal.integer number) =
      if number.natAbs < 2 ^ 64 then some (number % 2 ^ 64).toNat
      else none := by
  have nonempty := Decimal.natural_ne_nil number.natAbs
  have digits := Decimal.natural_isDigit number.natAbs
  have magnitude := Decimal.value_natural number.natAbs
  by_cases below : number < 0
  · have written : Decimal.integer number =
        text "-" ++ Decimal.natural number.natAbs := if_pos below
    rw [written, stoull_signed .minus nonempty digits, magnitude, if_pos rfl]
    by_cases small : number.natAbs < 2 ^ 64
    · have wrapped : wrapSize (2 ^ 64 - number.natAbs) =
          (number % 2 ^ 64).toNat := by
        unfold wrapSize
        omega
      rw [if_neg (Nat.not_le.mpr small), if_pos small, wrapped]
    · rw [if_pos (Nat.not_lt.mp small), if_neg small]
  · have written : Decimal.integer number =
        [] ++ Decimal.natural number.natAbs := if_neg below
    rw [written, stoull_signed .plain nonempty digits, magnitude,
      if_neg Bool.false_ne_true]
    by_cases small : number.natAbs < 2 ^ 64
    · have same : number.natAbs = (number % 2 ^ 64).toNat := by omega
      rw [if_neg (Nat.not_le.mpr small), if_pos small, same]
    · rw [if_pos (Nat.not_lt.mp small), if_neg small]

/-! ## What the expression finds -/

theorem lower_hash {digits : Text}
    (hexadecimal : ∀ byte ∈ digits, Hexadecimal.isDigit byte = true) :
    lower (text "0x" ++ digits) = text "0x" ++ digits := by
  have kept : ∀ byte ∈ digits, isUpper byte = false := by
    intro byte member
    have digit := hexadecimal byte member
    simp only [Hexadecimal.isDigit, isUpper, Bool.or_eq_true,
      Bool.and_eq_true, Bool.and_eq_false_iff, decide_eq_true_iff,
      decide_eq_false_iff_not, UInt8.le_iff_toNat_le,
      UInt8.reduceToNat] at digit ⊢
    omega
  have same : lower digits = digits := by
    have pointwise : ∀ byte ∈ digits,
        (if isUpper byte then byte + 32 else byte) = id byte := by
      intro byte member
      rw [kept byte member]
      exact if_neg Bool.false_ne_true
    calc lower digits
      _ = digits.map id := List.map_congr_left pointwise
      _ = digits := List.map_id digits
  have split : lower (text "0x" ++ digits) = text "0x" ++ lower digits := rfl
  rw [split, same]

theorem universalNewlines_eq_self {str : Text} (free : 13 ∉ str) :
    universalNewlines str = str := by
  fun_induction universalNewlines str with
  | case1 => rfl
  | case2 rest => exact absurd List.mem_cons_self free
  | case3 rest => exact absurd List.mem_cons_self free
  | case4 byte rest _ _ induction =>
      rw [induction fun member => free (List.mem_cons_of_mem byte member)]

/-- The expression matches the line of a hash and captures the hash. -/
theorem prefers_stateHashRe {digits : Text} (nonempty : digits ≠ [])
    (hexadecimal : ∀ byte ∈ digits, Hexadecimal.isDigit byte = true) :
    ∃ found, Prefers stateHashRe
        (text "STATE_HASH 0x" ++ digits ++ text "\n") found ∧
      found.captures = [text "0x" ++ digits] ∧ found.rest = [] := by
  have blank : text " " ≠ [] := by decide
  have spaced : ∀ byte ∈ text " ", isPySpace byte = true := by decide
  have begins : ∀ byte ∈ (text "0x" ++ (digits ++ text "\n")).head?,
      isPySpace byte = false := by
    intro byte head
    cases head
    rfl
  have inside : ∀ byte ∈ digits, isHexDigit byte = true := by
    intro byte member
    rw [isHexDigit, hexadecimal byte member, Bool.true_or]
  have newline : ∀ byte ∈ (text "\n").head?, isHexDigit byte = false := by
    intro byte head
    cases head
    rfl
  have closing : ∀ byte ∈ text "\n", isPySpace byte = true := by decide
  have nothing : ∀ byte ∈ ([] : Text).head?, isPySpace byte = false := by
    intro byte head
    cases head
  have trailing : Prefers [.star isPySpace] (text "\n" ++ [])
      ⟨text "\n" ++ [], [], []⟩ :=
    Prefers.star closing nothing prefers_nil
  have numeral : Prefers (literal (text "0x") ++ [.plus isHexDigit])
      (text "0x" ++ (digits ++ text "\n"))
      ⟨text "0x" ++ (digits ++ []), [], text "\n"⟩ :=
    Prefers.literal _ (Prefers.plus nonempty inside newline prefers_nil)
  have whole := Prefers.literal (text "STATE_HASH")
    (Prefers.plus blank spaced begins (Prefers.capture numeral trailing))
  have spelled : text "STATE_HASH 0x" ++ digits ++ text "\n" =
      text "STATE_HASH" ++ (text " " ++ (text "0x"
        ++ (digits ++ text "\n"))) := by
    rw [List.append_assoc]
    rfl
  rw [spelled]
  exact ⟨_, whole, by simp, rfl⟩

/-- The hash of a state as the check reads it. -/
def shownHash (state : State) : Text :=
  text "0x" ++ Hexadecimal.padded 16 (stateHash state).toNat

/-- The lines of a snapshot in front of the hash. -/
def frontLines (state : State) : List Text :=
  snapshotLine state :: registersLine state.registers :: trapPayloadLines state

/-- None of them starts with the word that the expression looks for. -/
theorem frontLines_differ (state : State) :
    ∀ line ∈ frontLines state, ∀ behind,
      ¬ text "STATE_HASH" <+: line ++ behind := by
  have differs : ∀ {label line : Text}, label <+: line →
      Differs (text "STATE_HASH") label →
        ∀ behind, ¬ text "STATE_HASH" <+: line ++ behind := by
    intro label line labelled differs behind starts
    have other := isPrefixOf_eq_false
      (labelled.trans (List.prefix_append line behind)) differs
    rw [List.isPrefixOf_iff_prefix.mpr starts] at other
    cases other
  intro line member
  rcases List.mem_cons.mp member with rfl | member
  · exact differs (snapshotLine_isPrefix state) (by decide)
  rcases List.mem_cons.mp member with rfl | member
  · exact differs (registersLine_isPrefix state.registers) (by decide)
  · obtain ⟨payload, _, rfl⟩ := List.mem_map.mp member
    exact differs (payloadLine_isPrefix payload) (by decide)

/-- The expression finds the hash of a snapshot. -/
theorem searchLines_snapshot (state : State) :
    ∃ found, searchLines 10 stateHashRe
        ((snapshotLines state).flatMap (· ++ text "\n")) = some found ∧
      found.captures = [shownHash state] := by
  have nonempty : Hexadecimal.padded 16 (stateHash state).toNat ≠ [] := by
    apply List.ne_nil_of_length_pos
    rw [Hexadecimal.length_padded (by omega) (stateHash state).toNat_lt]
    omega
  obtain ⟨found, prefers, captures, ends⟩ := prefers_stateHashRe nonempty
    (Hexadecimal.padded_isDigit 16 (stateHash state).toNat)
  have stops : atLineEnd 10 found = true := by
    rw [atLineEnd, ends]
    rfl
  have here := searchLines_of_prefers prefers stops
  have whole : snapshotLines state =
      frontLines state ++ [stateHashLine state] := rfl
  have free := newline_not_mem_snapshotLines state
  have last : [stateHashLine state].flatMap (· ++ text "\n") =
      text "STATE_HASH 0x" ++ Hexadecimal.padded 16 (stateHash state).toNat
        ++ text "\n" := List.flatMap_singleton _ _
  rw [whole] at free ⊢
  refine ⟨found, ?_, captures⟩
  rw [List.flatMap_append, last]
  rw [stateHashRe] at here ⊢
  refine (searchLines_skipAll ?_ (frontLines_differ state)).trans here
  intro line member
  exact free line (List.mem_append_left _ member)

/-! ## A run of the command -/

variable {host : Host} {files : Text → Option Text} {path directory : Text}
  {maxSteps : Int} {steps iterations : Nat} {options : Options}
  {result : Expected} {final : Interpreter}

/-- The items of a run of the check. -/
def runVmItems (maxSteps : Int) : List Argument :=
  [.snapshot, .maxSteps (Decimal.integer maxSteps)]

/-- The options of a run of the check. -/
def runVmOptions (maxSteps : Int) (path : Text) : Options :=
  { optionsFrom {} (runVmItems maxSteps) with programPath := path }

/-- A budget that is read as a positive number makes a command line. -/
theorem names_of_budget
    (reads : stoull (Decimal.integer maxSteps) = some steps)
    (positive : steps ≠ 0) (visible : (Argument.path path).Valid)
    (named : path ≠ []) :
    Names (runVmArgs path maxSteps) (runVmOptions maxSteps path) := by
  have split : runVmArgs path maxSteps =
      (runVmItems maxSteps).flatMap Argument.words ++ [path] := rfl
  rw [split]
  refine (names_path_iff ?_ ?_).mpr ⟨⟨visible, named⟩, rfl⟩
  · intro item member
    rcases List.mem_pair.mp member with rfl | rfl
    · trivial
    · exact ⟨steps, reads, positive⟩
  · intro item member
    rcases List.mem_pair.mp member with rfl | rfl <;> rfl

/-- Any other budget is refused. -/
theorem main_of_noBudget
    (refused : ∀ steps, stoull (Decimal.integer maxSteps) = some steps →
      steps = 0) :
    VM.main host files (runVmArgs path maxSteps) = .ok usage := by
  have unread : readArguments (runVmArgs path maxSteps) {} = none := by
    have first : text "--max-steps" ≠ text "--trace" := by decide
    have second : text "--max-steps" ≠ text "--snapshot" := by decide
    have third : text "--snapshot" ≠ text "--trace" := by decide
    rw [runVmArgs, readArguments, if_neg third, if_pos rfl, readArguments,
      if_neg first, if_neg second, if_pos rfl]
    cases reads : stoull (Decimal.integer maxSteps) with
    | none => rfl
    | some steps => exact if_pos (refused steps reads)
  apply main_of_unnamed
  · rfl
  · intro options names
    obtain ⟨accepted, _⟩ := names_iff.mp names
    rw [unread] at accepted
    cases accepted

/-- A session of the check is a success with the hash of its final state, or
a failure. -/
theorem runVm_of_session
    (session : Session host files (runVmArgs path maxSteps)
      (runVmOptions maxSteps path) result final) :
    (result = .ok () →
      runVm host files path maxSteps = .ok (shownHash final.state)) ∧
    (result ≠ .ok () → ∃ message,
      runVm host files path maxSteps = .error (.systemExit message)) := by
  have returned := session.main_eq
  have printable : ∀ line ∈ outLines (runVmOptions maxSteps path)
      final.state, Printable line :=
    printable_outLines session.detailPrintable
  constructor
  · rintro rfl
    have shown : (report (runVmOptions maxSteps path) (.ok ())
        final.state).out = _ := report_out final.state
    have lines : outLines (runVmOptions maxSteps path) final.state =
        snapshotLines final.state := by
      simp [outLines, runVmOptions, runVmItems, optionsFrom]
    have free : 13 ∉ (report (runVmOptions maxSteps path) (.ok ())
        final.state).out := by
      rw [shown]
      intro member
      obtain ⟨line, listed, inside⟩ := List.mem_flatMap.mp member
      rcases List.mem_append.mp inside with here | newline
      · exact absurd (printable line listed 13 here) (by decide)
      · exact absurd newline (by decide)
    obtain ⟨found, searched, captures⟩ := searchLines_snapshot final.state
    rw [← lines, ← shown] at searched
    have lowered : lower (shownHash final.state) = shownHash final.state :=
      lower_hash (Hexadecimal.padded_isDigit 16 _)
    have code : (report (runVmOptions maxSteps path) (.ok ())
        final.state).code = 0 := rfl
    simp [runVm, returned, code, universalNewlines_eq_self free, searched,
      captures, lowered]
  · intro failed
    have code : (report (runVmOptions maxSteps path) result
        final.state).code ≠ 0 := by
      simp [report, failed]
    simp [runVm, returned, code]

/-! ## The benchmark in a new object -/

/-- Where the benchmark halts, on which budgets, and that no host decides
about it. -/
structure Measured (iterations : Nat) (vm final : Interpreter) : Prop where
  image : ({} : Interpreter).loadProgram (benchmarkProgram iterations) =
    .ok vm
  done : Interpreter.BenchmarkDone iterations final
  halts : ∀ host maxSteps, 3 * iterations + 3 ≤ maxSteps →
    Interpreter.runToHalt host maxSteps vm = .ok (.ok (), final)
  exhausts : ∀ host maxSteps, maxSteps < 3 * iterations + 3 →
    ∃ middle, Interpreter.runToHalt host maxSteps vm =
      .ok (.error .trapInstruction, middle)

/-- The benchmark overflows no word, so every host runs it like the C++
abstract machine. -/
theorem exists_measured (positive : 1 ≤ iterations)
    (word : iterations < 2 ^ 63) (counted : 3 * iterations + 3 < 2 ^ 64) :
    ∃ vm final, Measured iterations vm final := by
  have plain : parsePolicy (benchmarkProgram iterations).axionPolicyText =
      .ok none := parsePolicy_nil
  have image := (@Interpreter.loadProgram_eq_ok _ _ {}).mpr
    ⟨none, plain, rfl⟩
  have loads : Interpreter.Loads (benchmarkProgram iterations) _ :=
    ⟨{}, image⟩
  have runs := fun host => loads.runsBenchmark host positive word counted
  obtain ⟨final, done, halts⟩ := (runs strictHost).halts
  have strict : strictHost.Strict := fun _ => rfl
  refine ⟨_, final, image, done, ?_, fun host => (runs host).exhausts⟩
  intro host maxSteps enough
  exact (loads.tensorFree.runToHalt_eqUnless strict.extendedBy maxSteps).of_ok
    (halts maxSteps enough)

/-- The argument is read as a budget on which the benchmark halts. -/
def Suffices (iterations : Nat) (maxSteps : Int) : Prop :=
  maxSteps.natAbs < 2 ^ 64 ∧ 3 * (iterations : Int) + 3 ≤ maxSteps % 2 ^ 64

variable {vm : Interpreter}

theorem session_of_budget (measured : Measured iterations vm final)
    (word : iterations < 2 ^ 63)
    (visible : (Argument.path (benchmarkPath directory)).Valid)
    (reads : stoull (Decimal.integer maxSteps) = some steps)
    (positive : steps ≠ 0) {last : Interpreter}
    (finished : Interpreter.runToHalt host steps vm = .ok (result, last)) :
    Session host (written files directory iterations)
      (runVmArgs (benchmarkPath directory) maxSteps)
      (runVmOptions maxSteps (benchmarkPath directory)) result last := by
  have named : benchmarkPath directory ≠ [] :=
    List.append_ne_nil_of_right_ne_nil _ (by decide)
  have content : written files directory iterations
      (benchmarkPath directory) = some (renderProgram iterations) :=
    if_pos rfl
  have budget : (runVmOptions maxSteps (benchmarkPath directory)).maxSteps =
      steps := by
    simp [runVmOptions, runVmItems, optionsFrom, Argument.steps?, reads]
  have loads := loadProgramFromFile_benchmark directory word
  rw [← content] at loads
  apply Session.intro (names_of_budget reads positive visible named) loads rfl
    measured.image
  rw [budget]
  exact finished

/-- On a budget that suffices the check reads the hash. -/
theorem runVm_of_suffices (measured : Measured iterations vm final)
    (word : iterations < 2 ^ 63)
    (visible : (Argument.path (benchmarkPath directory)).Valid)
    (enough : Suffices iterations maxSteps) :
    runVm host (written files directory iterations)
        (benchmarkPath directory) maxSteps = .ok (shownHash final.state) := by
  obtain ⟨small, reached⟩ := enough
  have reads := stoull_integer maxSteps
  rw [if_pos small] at reads
  have finished := measured.halts host (maxSteps % 2 ^ 64).toNat (by omega)
  have session : Session host (written files directory iterations) _ _ _ _ :=
    session_of_budget measured word visible reads (by omega) finished
  exact (runVm_of_session session).1 rfl

/-- On any other the run fails, and the check with it. -/
theorem runVm_of_not_suffices (measured : Measured iterations vm final)
    (word : iterations < 2 ^ 63)
    (visible : (Argument.path (benchmarkPath directory)).Valid)
    (short : ¬ Suffices iterations maxSteps) :
    ∃ message, runVm host (written files directory iterations)
        (benchmarkPath directory) maxSteps =
      .error (.systemExit message) := by
  by_cases budget : ∃ steps,
      stoull (Decimal.integer maxSteps) = some steps ∧ steps ≠ 0
  · obtain ⟨steps, reads, positive⟩ := budget
    have below : steps < 3 * iterations + 3 := by
      rw [stoull_integer] at reads
      split at reads
      · rename_i small
        cases reads
        by_contra enough
        exact short ⟨small, by omega⟩
      · cases reads
    obtain ⟨middle, exhausted⟩ := measured.exhausts host steps below
    have session : Session host (written files directory iterations) _ _ _ _ :=
      session_of_budget measured word visible reads positive exhausted
    exact (runVm_of_session session).2 (by simp)
  · have refused : VM.main host (written files directory iterations)
        (runVmArgs (benchmarkPath directory) maxSteps) = .ok usage := by
      apply main_of_noBudget
      intro steps reads
      by_contra positive
      exact budget ⟨steps, reads, positive⟩
    have code : usage.code ≠ 0 := by decide
    simp [runVm, refused, code]

/-! ## Repeated runs -/

section Repeated

variable {run : Nat → Except Exit Text} {hash : Text}

theorem mapM_ok (same : ∀ number, run number = .ok hash)
    (numbers : List Nat) :
    numbers.mapM run = .ok (List.replicate numbers.length hash) := by
  induction numbers with
  | nil => rfl
  | cons number numbers induction =>
      rw [List.mapM_cons, same number, induction]
      rfl

theorem mapM_systemExit (fails : ∀ number, ∃ message,
    run number = .error (.systemExit message)) {numbers : List Nat}
    (some : numbers ≠ []) :
    ∃ message, numbers.mapM run = .error (.systemExit message) := by
  obtain ⟨number, others, rfl⟩ := List.exists_cons_of_ne_nil some
  obtain ⟨message, failed⟩ := fails number
  refine ⟨message, ?_⟩
  rw [List.mapM_cons, failed]
  rfl

/-- Equal hashes are one. -/
theorem sortedSet_replicate {count : Nat} (positive : count ≠ 0) :
    sortedSet (List.replicate count hash) = [hash] := by
  rw [sortedSet, List.replicate_dedup positive, List.mergeSort_singleton]

end Repeated

/-! ## The whole check -/

/-- The baseline expects this hash, or none in particular. -/
def Expects (baseline : Baseline) (hash : Text) : Prop :=
  lower (strip baseline.expectedStateHash) = [] ∨
    lower (strip baseline.expectedStateHash) = hash

/-- Whatever the hosts of the runs, the check gets to the timings just with
this hash, on the budgets that suffice and with a run to measure; otherwise
it raises `SystemExit`. -/
structure ChecksHash (iterations : Nat) (hash : Text)
    (baseline : Baseline) (checked : Except Exit Text) : Prop where
  passes : ∀ found, checked = .ok found ↔ found = hash ∧
    Suffices iterations baseline.maxSteps ∧ 1 ≤ baseline.measureRuns ∧
      Expects baseline hash
  exits : ∀ exit, checked = .error exit →
    ∃ message, exit = .systemExit message

variable {hosts : Nat → Host} {baseline : Baseline} {hash : Text}

theorem checkHashes_nil (expectedHash : Text) :
    ∃ message, checkHashes expectedHash [] = .error (.systemExit message) := by
  have nothing : sortedSet [] = [] := by
    rw [sortedSet, List.dedup_nil, List.mergeSort_nil]
  rw [checkHashes, nothing]
  exact ⟨_, rfl⟩

/-- Equal hashes pass when they are expected. -/
theorem checkHashes_of_expected {expectedHash : Text} {count : Nat}
    (positive : count ≠ 0)
    (expects : expectedHash = [] ∨ expectedHash = hash) :
    checkHashes expectedHash (List.replicate count hash) = .ok hash := by
  have passes : ¬ (expectedHash ≠ [] ∧ hash ≠ expectedHash) := by
    rintro ⟨visible, differs⟩
    rcases expects with empty | same
    · exact visible empty
    · exact differs same.symm
  rw [checkHashes, sortedSet_replicate positive]
  exact if_neg passes

/-- Without a hash, or with another one than is expected, the check fails. -/
theorem checkHashes_of_unexpected {expectedHash : Text} {count : Nat}
    (rejected : ¬ (count ≠ 0 ∧ (expectedHash = [] ∨ expectedHash = hash))) :
    ∃ message, checkHashes expectedHash (List.replicate count hash) =
      .error (.systemExit message) := by
  by_cases positive : count ≠ 0
  · have fails : expectedHash ≠ [] ∧ hash ≠ expectedHash := by
      rw [not_and, not_or] at rejected
      exact ⟨(rejected positive).1, Ne.symm (rejected positive).2⟩
    rw [checkHashes, sortedSet_replicate positive]
    simp only [if_pos fails]
    exact ⟨_, rfl⟩
  · rw [not_not] at positive
    rw [positive]
    exact checkHashes_nil expectedHash

theorem ChecksHash.of_systemExit {checked : Except Exit Text}
    (rejected : ¬ (Suffices iterations baseline.maxSteps ∧
      1 ≤ baseline.measureRuns ∧ Expects baseline hash))
    (fails : ∃ message, checked = .error (.systemExit message)) :
    ChecksHash iterations hash baseline checked := by
  obtain ⟨message, rfl⟩ := fails
  constructor
  · intro found
    constructor
    · intro passed
      cases passed
    · intro accepted
      exact absurd accepted.2 rejected
  · intro exit same
    cases same
    exact ⟨message, rfl⟩

/-- Runs that all find the hash. -/
theorem checksHash_of_ok
    (enough : Suffices iterations baseline.maxSteps)
    (same : ∀ number, runVm (hosts number)
      (written files directory baseline.iterations) (benchmarkPath directory)
        baseline.maxSteps = .ok hash) :
    ChecksHash iterations hash baseline
      (main hosts files directory baseline) := by
  have whole : main hosts files directory baseline =
      checkHashes (lower (strip baseline.expectedStateHash))
        (List.replicate baseline.measureRuns.toNat hash) := by
    simp only [main, mapM_ok same, List.length_range']
    rfl
  have counted : baseline.measureRuns.toNat ≠ 0 ↔
      1 ≤ baseline.measureRuns := by omega
  rw [whole]
  by_cases accepted : baseline.measureRuns.toNat ≠ 0 ∧ Expects baseline hash
  · obtain ⟨some, expects⟩ := accepted
    rw [checkHashes_of_expected some expects]
    constructor
    · intro found
      rw [Except.ok.injEq, eq_comm]
      exact ⟨fun same => ⟨same, enough, counted.mp some, expects⟩, And.left⟩
    · intro exit failed
      cases failed
  · apply ChecksHash.of_systemExit
    · rintro ⟨_, measures, expects⟩
      exact accepted ⟨counted.mpr measures, expects⟩
    · exact checkHashes_of_unexpected accepted

/-- Runs that all fail. -/
theorem main_systemExit
    (fails : ∀ number, ∃ message, runVm (hosts number)
      (written files directory baseline.iterations) (benchmarkPath directory)
        baseline.maxSteps = .error (.systemExit message)) :
    ∃ message, main hosts files directory baseline =
      .error (.systemExit message) := by
  have stops : ∀ numbers : List Nat, numbers ≠ [] → ∃ message,
      (numbers.mapM fun number => runVm (hosts number)
        (written files directory baseline.iterations)
          (benchmarkPath directory) baseline.maxSteps) =
        .error (.systemExit message) :=
    fun numbers some => mapM_systemExit fails some
  by_cases warms : List.range baseline.warmupRuns.toNat = []
  · by_cases measures : List.range' baseline.warmupRuns.toNat
        baseline.measureRuns.toNat = []
    · obtain ⟨message, failed⟩ :=
        checkHashes_nil (lower (strip baseline.expectedStateHash))
      refine ⟨message, ?_⟩
      simp only [main, warms, measures]
      exact failed
    · obtain ⟨message, failed⟩ := stops _ measures
      refine ⟨message, ?_⟩
      simp only [main, warms, failed]
      rfl
  · obtain ⟨message, failed⟩ := stops _ warms
    refine ⟨message, ?_⟩
    simp only [main, failed]
    rfl

end T81VM.VM.PerfCheck
