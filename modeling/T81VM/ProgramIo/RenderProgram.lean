import T81VM.ProgramIo.TextV1
import T81VM.VM.BenchmarkLoop

/-!
# Rendering the benchmark

The performance check writes its program as a file of lines, each ended by a
newline, with single spaces between the words.  The file loads as the program
of the benchmark.
-/

namespace T81VM.ProgramIo

open Tisc VM

/-- `render_program`. -/
def renderProgram (iterations : Int) : Text :=
  (text "\n").intercalate [
    text "LoadImm 0 " ++ Decimal.integer iterations ++ text " 0",
    text "LoadImm 1 1 0",
    text "Add 2 2 1",
    text "Dec 0 0 0",
    text "JumpIfNotZero 2 0 0",
    text "Halt 0 0 0",
    []]

/-- The path of the rendered program in a temporary directory. -/
def benchmarkPath (directory : Text) : Text :=
  directory ++ text "/runtime_bench.t81"

/-! ## Lines -/

/-- The line of an instruction with single spaces between its words. -/
def spacedLine (spelled : Spelled) : Text :=
  spelled.name ++ (text " " ++ (number spelled.insn.a ++ (text " "
    ++ (number spelled.insn.b ++ (text " " ++ number spelled.insn.c)))))

theorem rendersLine_spacedLine {policy : Text} (spelled : Spelled) :
    RendersLine policy (.insn spelled) (spacedLine spelled) := by
  have blank : Blank (text " ") := by decide
  have nothing : Blank [] := by decide
  have separated : text " " ≠ [] := by decide
  have renders := @RendersLine.insn policy spelled [] (text " ") (text " ")
    (text " ") [] nothing blank separated blank separated blank separated
    nothing
  rw [List.nil_append, List.append_nil] at renders
  exact renders

theorem oneLine_append {left right : Text} :
    OneLine (left ++ right) ↔ OneLine left ∧ OneLine right :=
  List.forall_mem_append

theorem oneLine_number (value : Int64) : OneLine (number value) := by
  intro byte member
  cases newline : isByte '\n' byte with
  | false => rfl
  | true =>
      have numeric := number_bytes value byte member
      rw [eq_of_beq newline] at numeric
      exact absurd numeric (by decide)

theorem oneLine_spacedLine {spelled : Spelled} (name : OneLine spelled.name) :
    OneLine (spacedLine spelled) := by
  have blank : OneLine (text " ") := by decide
  simp only [spacedLine, oneLine_append]
  exact ⟨name, blank, oneLine_number _, blank, oneLine_number _, blank,
    oneLine_number _⟩

/-- Lines joined by newlines before an empty one are all terminated. -/
theorem joined_intercalate {lines : List Text}
    (oneLines : ∀ line ∈ lines, OneLine line) :
    Joined lines ((text "\n").intercalate (lines ++ [[]])) := by
  induction lines with
  | nil => exact .none
  | cons line lines induction =>
      have later := induction fun other member =>
        oneLines other (List.mem_cons_of_mem line member)
      rw [List.cons_append, List.intercalate_cons_of_ne_nil
        (List.append_ne_nil_of_right_ne_nil _ (List.cons_ne_nil _ _)),
        List.append_assoc]
      exact .terminated (oneLines line List.mem_cons_self) later

/-- A program whose instructions are spelled line by line. -/
theorem rendersTextV1_spaced {program : Program} {spelled : List Spelled}
    (insns : spelled.map Spelled.insn = program.insns)
    (policy : program.axionPolicyText = [])
    (names : ∀ one ∈ spelled, OneLine one.name) :
    RendersTextV1 program
      ((text "\n").intercalate (spelled.map spacedLine ++ [[]])) := by
  refine ⟨spelled, spelled.map .insn, spelled.map spacedLine, insns,
    .inr ⟨policy, ?_⟩, ?_, joined_intercalate ?_⟩
  · rw [List.filter_eq_self]
    intro item member
    obtain ⟨one, _, rfl⟩ := List.mem_map.mp member
    rfl
  · rw [List.forall₂_map_left_iff, List.forall₂_map_right_iff,
      List.forall₂_same]
    intro one _
    exact rendersLine_spacedLine one
  · intro line member
    obtain ⟨one, listed, rfl⟩ := List.mem_map.mp member
    exact oneLine_spacedLine (names one listed)

/-! ## The benchmark -/

theorem spells_loadImm :
    opcodeFromString (text "LoadImm") = some .loadImm := by
  decide

/-- The instructions of the benchmark under the names the script writes. -/
def spelledBenchmark (iterations : Nat) : List Spelled := [
  { name := text "LoadImm"
    insn := { opcode := .loadImm, a := 0, b := ofSize iterations, c := 0 }
    spells := spells_loadImm },
  { name := text "LoadImm"
    insn := { opcode := .loadImm, a := 1, b := 1, c := 0 }
    spells := spells_loadImm },
  { name := text "Add"
    insn := { opcode := .add, a := 2, b := 2, c := 1 }
    spells := by decide },
  { name := text "Dec"
    insn := { opcode := .dec, a := 0, b := 0, c := 0 }
    spells := by decide },
  { name := text "JumpIfNotZero"
    insn := { opcode := .jumpIfNotZero, a := 2, b := 0, c := 0 }
    spells := by decide },
  { name := text "Halt"
    insn := { opcode := .halt, a := 0, b := 0, c := 0 }
    spells := by decide }]

theorem renderProgram_eq {iterations : Nat} (word : iterations < 2 ^ 63) :
    renderProgram iterations = (text "\n").intercalate
      ((spelledBenchmark iterations).map spacedLine ++ [[]]) := by
  have operand : number (ofSize iterations) = Decimal.integer iterations := by
    rw [number, toInt_ofSize word]
  have zero : number 0 = text "0" := by decide
  have one : number 1 = text "1" := by decide
  have two : number 2 = text "2" := by decide
  simp only [spelledBenchmark, List.map_cons, List.map_nil, spacedLine,
    operand, zero, one, two]
  rfl

theorem rendersTextV1_benchmark {iterations : Nat}
    (word : iterations < 2 ^ 63) :
    RendersTextV1 (benchmarkProgram iterations) (renderProgram iterations) := by
  have names : ∀ name ∈ (spelledBenchmark iterations).map Spelled.name,
      OneLine name := by
    show ∀ name ∈ [text "LoadImm", text "LoadImm", text "Add", text "Dec",
      text "JumpIfNotZero", text "Halt"], OneLine name
    decide
  rw [renderProgram_eq word]
  apply rendersTextV1_spaced rfl rfl
  intro one listed
  exact names one.name (List.mem_map_of_mem listed)

/-- The name at the end of a path decides about its format. -/
theorem looksLikeJsonPath_append {directory name : Text}
    (long : 5 ≤ name.length) :
    looksLikeJsonPath (directory ++ name) = looksLikeJsonPath name := by
  have whole : 5 ≤ (directory ++ name).length := by
    rw [List.length_append]
    omega
  have cut : (directory ++ name).length - 5 =
      directory.length + (name.length - 5) := by
    rw [List.length_append]
    omega
  rw [looksLikeJsonPath, looksLikeJsonPath, cut, List.drop_length_add_append,
    decide_eq_true whole, decide_eq_true long]

theorem loadProgramFromFile_benchmark (directory : Text) {iterations : Nat}
    (word : iterations < 2 ^ 63) :
    loadProgramFromFile (some (renderProgram iterations))
        (benchmarkPath directory) =
      .ok { ok := true, format := .textV1
            program := benchmarkProgram iterations, error := [] } := by
  have format : looksLikeJsonPath (benchmarkPath directory) = false := by
    rw [benchmarkPath, looksLikeJsonPath_append (by decide)]
    decide
  rw [loadProgramFromFile]
  simp only [format, Bool.false_eq_true, if_false]
  exact loadTextV1_rendered ⟨rfl, by simp [benchmarkProgram]⟩
    (rendersTextV1_benchmark word)

/-- The rendered benchmark loads, and from every load it halts after three
steps for each iteration and three more. -/
theorem benchmark_totallyCorrect (host : Host) (directory : Text)
    {iterations : Nat} (positive : 1 ≤ iterations)
    (word : iterations ≤ Int64.maxValue.toInt)
    (counted : 3 * iterations + 3 < 2 ^ 64) :
    loadProgramFromFile (some (renderProgram iterations))
        (benchmarkPath directory) =
      .ok { ok := true, format := .textV1
            program := benchmarkProgram iterations, error := [] } ∧
    ∀ old : Interpreter, ∃ vm,
      old.loadProgram (benchmarkProgram iterations) = .ok vm ∧
        vm.RunsBenchmark host iterations := by
  have inside : (iterations : Int) < (2 ^ 63 : Nat) :=
    Int.lt_of_le_of_lt word (by decide)
  have small : iterations < 2 ^ 63 := Int.ofNat_lt.mp inside
  constructor
  · exact loadProgramFromFile_benchmark directory small
  · intro old
    have plain : parsePolicy (benchmarkProgram iterations).axionPolicyText =
        .ok none := parsePolicy_nil
    have loaded := (@Interpreter.loadProgram_eq_ok _ _ old).mpr
      ⟨none, plain, rfl⟩
    have loads : Interpreter.Loads (benchmarkProgram iterations) _ :=
      ⟨old, loaded⟩
    exact ⟨_, loaded, loads.runsBenchmark host positive small counted⟩

/-- The iterations of the baseline take the steps that it expects. -/
theorem benchmark_totallyCorrect_baseline :
    loadProgramFromFile (some (renderProgram 200000))
        (benchmarkPath (text "/tmp")) =
      .ok { ok := true, format := .textV1
            program := benchmarkProgram 200000, error := [] } ∧
    ∀ old : Interpreter, ∃ vm,
      old.loadProgram (benchmarkProgram 200000) = .ok vm ∧
        vm.RunsBenchmark strictHost 200000 :=
  benchmark_totallyCorrect strictHost (text "/tmp") (by decide) (by decide)
    (by decide)

end T81VM.ProgramIo
