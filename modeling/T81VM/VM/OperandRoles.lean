import T81VM.VM.Installed
import T81VM.VM.Obstacle
import T81VM.VM.TensorLoops

/-!
# The validator and the dispatch loop on operand roles

An operand indexes the register file when some execution gets stuck on it.
`validatorAgrees_iff` compares the operands the validator checks with those:
they differ in operand `b` of `Neg` and of the scalar conversions only.
-/

namespace T81VM.VM

open Tisc Fallible Interpreter

/-- The registers are numbered from 0 to 242. -/
def InRegisterFile (idx : Int64) : Prop :=
  0 ≤ idx ∧ idx ≤ 242

instance (idx : Int64) : Decidable (InRegisterFile idx) :=
  inferInstanceAs (Decidable (_ ∧ _))

theorem inRegisterFile_iff {idx : Int64} :
    InRegisterFile idx ↔ toSize idx < 243 := by
  constructor
  · rintro ⟨nonneg, bounded⟩
    have cast := toSize_of_nonneg nonneg
    have upper : idx.toInt ≤ 242 := by
      simpa using Int64.le_iff_toInt_le.mp bounded
    omega
  · intro small
    have nonneg : 0 ≤ idx := by
      by_contra negative
      have large := toSize_of_neg (Int64.not_le.mp negative)
      omega
    refine ⟨nonneg, Int64.le_iff_toInt_le.mpr ?_⟩
    have cast := toSize_of_nonneg nonneg
    simp
    omega

theorem validReg_iff_inRegisterFile {idx : Int64} :
    validReg idx = true ↔ InRegisterFile idx :=
  validReg_iff.trans inRegisterFile_iff.symm

/-- Some execution of the opcode reads or writes the register file at this
operand, whatever its value: with the others in range it gets stuck there. -/
def IndexesRegisters (opcode : Opcode) (operand : Operand) : Prop :=
  ∃ (host : Host) (vm : Interpreter) (insn : Insn) (pc : Nat),
    insn.opcode = opcode ∧
    (∀ other, other ≠ operand → InRegisterFile (operandOf insn other)) ∧
    vm.execute host insn pc =
      .error (.registerIndex (operandOf insn operand))

/-! ## Reading the operands off the dispatch loop -/

theorem arithmeticResult_error {host : Host} {opcode : Opcode}
    {lhs rhs : Int64} {stuck : Stuck}
    (failed : arithmeticResult host opcode lhs rhs = .error stuck) :
    ∃ op, stuck = .signed op := by
  unfold arithmeticResult at failed
  split at failed
  all_goals
    first
    | exact ⟨_, (Host.signed_error failed).1⟩
    | contradiction

/-- Failures that name no register. -/
def NotIndex (stuck : Stuck) : Prop :=
  ∀ idx, stuck ≠ .registerIndex idx

theorem signed_notIndex {host : Host} {op : SignedOp} :
    FailsOnly NotIndex (host.signed op) := by
  refine failsOnly_of_error fun stuck failed idx same => ?_
  have undefined := (Host.signed_error failed).1
  rw [same] at undefined
  contradiction

theorem notIndex_tensorIndex (idx : Nat) : NotIndex (.tensorIndex idx) :=
  fun _ same => by contradiction

theorem notIndex_lengthError : NotIndex (.exception .lengthError) :=
  fun _ same => by contradiction

theorem innerProduct_notIndex {host : Host} {lhs rhs : List Int64}
    {bound : Nat} {left right : Nat → Nat} :
    FailsOnly NotIndex (forBelow bound 0 fun sum k =>
      multiplyAdd host lhs rhs sum (left k) (right k)) :=
  innerProduct_meets notIndex_tensorIndex (fun _ _ => True) trivial
    fun _ _ _ _ _ _ _ _ => signed_notIndex.bind fun _ _ => signed_notIndex

/-- A register index is an obstacle only as an operand of the table. -/
theorem Obstacle.of_registerIndex {host : Host} {vm : Interpreter}
    {insn : Insn} {pc : Nat} {idx : Int64}
    (obstacle : Obstacle host vm insn pc (.registerIndex idx)) :
    ∃ operand ∈ registerOperands insn.opcode,
      idx = operandOf insn operand ∧ 243 ≤ toSize idx := by
  have loops : ∀ {α : Type} {result : Except Stuck α},
      FailsOnly NotIndex result → result ≠ .error (.registerIndex idx) :=
    fun meets failed => meets.of_error failed idx rfl
  cases obstacle with
  | operand operand used outside => exact ⟨operand, used, rfl, outside⟩
  | arithmetic _ _ _ failed =>
      obtain ⟨op, same⟩ := arithmeticResult_error failed
      contradiction
  | incremented _ _ failed | decremented _ _ failed
  | compared _ _ _ failed | negated _ _ failed =>
      exact (loops signed_notIndex failed).elim
  | weights _ failed =>
      unfold weightsHandle at failed
      split at failed
      · contradiction
      · exact (loops signed_notIndex failed).elim
  | vector _ _ _ failed =>
      exact (loops (vectorCombine_meets notIndex_tensorIndex
        notIndex_lengthError fun _ _ _ _ _ => signed_notIndex) failed).elim
  | matMul _ _ _ _ failed =>
      exact (loops (matMulData_meets notIndex_tensorIndex
        notIndex_lengthError fun _ _ _ _ => innerProduct_notIndex)
          failed).elim
  | tenDot _ _ _ failed => exact (loops innerProduct_notIndex failed).elim
  | transpose failed =>
      exact (loops (transposeData_meets notIndex_tensorIndex
        notIndex_lengthError) failed).elim
  | rotated _ _ _ failed =>
      exact (loops (rotatePairs_meets fun _ _ _ _ _ => signed_notIndex)
        failed).elim

/-- A machine on which every opcode reaches each of its operands. -/
def probe (opcode : Opcode) : Interpreter :=
  let left : ValueTag :=
    match opcode with
    | .optionIsSome | .optionUnwrap => .optionHandle
    | .resultIsOk | .resultUnwrapOk | .resultUnwrapErr => .resultHandle
    | .enumIsVariant | .enumUnwrapPayload => .enumHandle
    | _ => .tensorHandle
  let right : ValueTag :=
    if opcode = .chkShape then .shapeHandle else .tensorHandle
  { state := {
      registers := fun _ => 1
      registerTags := fun reg => if reg = 2 then right else left
      memory := [0, 0]
      layout := {
        code := { start := 0, limit := 2 }
        stack := { start := 0, limit := 2 }
        heap := { start := 0, limit := 2 } }
      sp := 1
      stackFrames := [(0, 0)]
      heapFrames := [(0, 0)]
      optionPool := [{ hasValue := true, payloadTag := .int, payload := 0 }]
      resultPool := [{
        isOk := opcode ≠ .resultUnwrapErr
        payloadTag := .int
        payload := 0 }]
      enumPool := [{
        variantId := 0
        hasPayload := true
        payloadTag := .int
        payload := 0 }]
      tensorPool := [{
        shape := if opcode = .tMatMul ∨ opcode = .tTranspose then [1, 1]
          else [1]
        data := if opcode = .tRoPE then [1, 1] else [1] }]
      shapePool := [[1]] } }

/-- An instruction with one operand out of range. -/
def probeInsn (opcode : Opcode) : Operand → Insn
  | .a => { opcode, a := -1, b := 1, c := 2 }
  | .b => { opcode, a := 0, b := -1, c := 2 }
  | .c => { opcode, a := 0, b := 1, c := -1 }

theorem probe_execute {opcode : Opcode} {operand : Operand}
    (used : operand ∈ registerOperands opcode) :
    (probe opcode).execute strictHost (probeInsn opcode operand) 0 =
      .error (.registerIndex (-1)) := by
  cases opcode <;> cases operand <;>
    first
    | rfl
    | simp [registerOperands] at used

/-- The table lists exactly the operands that index the register file. -/
theorem mem_registerOperands_iff {opcode : Opcode} {operand : Operand} :
    operand ∈ registerOperands opcode ↔ IndexesRegisters opcode operand := by
  constructor
  · intro used
    refine ⟨strictHost, probe opcode, probeInsn opcode operand, 0, ?_, ?_, ?_⟩
    · cases operand <;> rfl
    · have zero : InRegisterFile 0 := by decide
      intro other distinct
      cases operand <;> cases other <;>
        first
        | contradiction
        | exact zero
    · rw [probe_execute used]
      cases operand <;> rfl
  · rintro ⟨host, vm, insn, pc, rfl, others, failed⟩
    obtain ⟨actual, used, same, outside⟩ :=
      (execute_obstacle.of_error failed).of_registerIndex
    by_cases equal : actual = operand
    · exact equal ▸ used
    · have inside := inRegisterFile_iff.mp (others actual equal)
      rw [same] at outside
      omega

/-! ## The requirements on a program -/

/-- The jumps with a static target in operand `a`. -/
def jumpsStatically (opcode : Opcode) : Prop :=
  role opcode = .jumps

instance (opcode : Opcode) : Decidable (jumpsStatically opcode) :=
  inferInstanceAs (Decidable (_ = _))

/-- The opcodes whose operand `b` the validator does not check. -/
def convertsUnchecked (opcode : Opcode) : Prop :=
  opcode = .neg ∨ opcode = .i2F ∨ opcode = .f2I ∨ opcode = .i2Frac ∨
    opcode = .frac2I

instance (opcode : Opcode) : Decidable (convertsUnchecked opcode) :=
  inferInstanceAs (Decidable (_ ∨ _))

/-- What an instruction of a program with `size` instructions has to meet. -/
structure WellFormedInsn (size : Nat) (insn : Insn) : Prop where
  defined : ∀ excess, insn.opcode ≠ .undefined excess
  registers : ∀ operand, IndexesRegisters insn.opcode operand →
    InRegisterFile (operandOf insn operand)
  target : jumpsStatically insn.opcode → 0 ≤ insn.a ∧ toSize insn.a < size

def WellFormed (program : Program) : Prop :=
  ∀ insn ∈ program.insns, WellFormedInsn program.insns.length insn

/-- The requirements but the one on operand `b` of `Neg` and of the scalar
conversions. -/
structure OtherwiseWellFormed (size : Nat) (insn : Insn) : Prop where
  defined : ∀ excess, insn.opcode ≠ .undefined excess
  registers : ∀ operand, IndexesRegisters insn.opcode operand →
    (convertsUnchecked insn.opcode → operand ≠ .b) →
    InRegisterFile (operandOf insn operand)
  target : jumpsStatically insn.opcode → 0 ≤ insn.a ∧ toSize insn.a < size

/-- Operand `b` of `Neg` and of the scalar conversions names a register. -/
def ConversionsInRange (program : Program) : Prop :=
  ∀ insn ∈ program.insns, convertsUnchecked insn.opcode →
    InRegisterFile insn.b

theorem validOpcode_iff {opcode : Opcode} :
    validOpcode opcode = true ↔ ∀ excess, opcode ≠ .undefined excess := by
  cases opcode <;> simp [validOpcode]

/-- The operand check, by the table of register operands. -/
theorem validOperands_iff {size : Nat} {insn : Insn} :
    validOperands size insn = true ↔
      (∀ operand ∈ registerOperands insn.opcode,
        (convertsUnchecked insn.opcode → operand ≠ .b) →
          validReg (operandOf insn operand) = true) ∧
      (jumpsStatically insn.opcode →
        validTarget size insn.a = true) := by
  cases opcode : insn.opcode <;>
    simp [validOperands, registerOperands, convertsUnchecked,
      jumpsStatically, role, operandOf, opcode, and_assoc]

/-- The validator accepts exactly the programs that meet every requirement
but one. -/
theorem validateProgram_eq_none_iff_otherwise {program : Program} :
    validateProgram program = none ↔
      ∀ insn ∈ program.insns,
        OtherwiseWellFormed program.insns.length insn := by
  rw [validateProgram_eq_none_iff]
  refine forall₂_congr fun insn _ => ?_
  rw [validOpcode_iff, validOperands_iff]
  constructor
  · rintro ⟨defined, registers, target⟩
    refine ⟨defined, ?_, fun jumps => validTarget_iff.mp (target jumps)⟩
    intro operand indexes checked
    exact validReg_iff_inRegisterFile.mp
      (registers operand (mem_registerOperands_iff.mpr indexes) checked)
  · rintro ⟨defined, registers, target⟩
    refine ⟨defined, ?_, fun jumps => validTarget_iff.mpr (target jumps)⟩
    intro operand used checked
    exact validReg_iff_inRegisterFile.mpr
      (registers operand (mem_registerOperands_iff.mp used) checked)

/-- The missing requirement completes the others. -/
theorem wellFormed_iff {program : Program} :
    WellFormed program ↔
      (∀ insn ∈ program.insns,
        OtherwiseWellFormed program.insns.length insn) ∧
      ConversionsInRange program := by
  constructor
  · intro wellFormed
    constructor
    · intro insn member
      obtain ⟨defined, registers, target⟩ := wellFormed insn member
      exact ⟨defined, fun operand indexes _ => registers operand indexes,
        target⟩
    · intro insn member converts
      refine (wellFormed insn member).registers .b
        (mem_registerOperands_iff.mp ?_)
      rcases converts with same | same | same | same | same <;>
        simp [same, registerOperands]
  · rintro ⟨others, conversions⟩ insn member
    obtain ⟨defined, registers, target⟩ := others insn member
    refine ⟨defined, fun operand indexes => ?_, target⟩
    by_cases unchecked : convertsUnchecked insn.opcode ∧ operand = .b
    · obtain ⟨converts, rfl⟩ := unchecked
      exact conversions insn member converts
    · exact registers operand indexes
        fun converts same => unchecked ⟨converts, same⟩

/-- In a well-formed program no step leaves the register file. -/
theorem WellFormed.step_ne_registerIndex {host : Host} {program : Program}
    {vm : Interpreter} (wellFormed : WellFormed program)
    (installed : Installed program vm) (idx : Int64) :
    vm.step host ≠ .error (.registerIndex idx) := by
  intro failed
  obtain ⟨insn, fetches, obstacle⟩ := step_obstacle failed
  obtain ⟨operand, used, same, outside⟩ := obstacle.of_registerIndex
  have member : insn ∈ program.insns := by
    rw [← installed.program_eq]
    exact List.mem_of_getElem? fetches.fetched
  have inside := inRegisterFile_iff.mp ((wellFormed insn member).registers
    operand (mem_registerOperands_iff.mp used))
  rw [same] at outside
  omega

/-- Validator and dispatch loop agree on a program: it is accepted when it is
well-formed and only then, and once accepted it never leaves the register
file. -/
structure ValidatorAgrees (program : Program) : Prop where
  accepts : validateProgram program = none ↔ WellFormed program
  safe : validateProgram program = none → ∀ host vm,
    Reachable host program vm → ∀ idx,
      vm.step host ≠ .error (.registerIndex idx)

/-- They agree on a program exactly when its conversions read registers, or
when it breaks another requirement and is rejected for that. -/
theorem validatorAgrees_iff (program : Program) :
    ValidatorAgrees program ↔
      ((∀ insn ∈ program.insns,
          OtherwiseWellFormed program.insns.length insn) →
        ConversionsInRange program) := by
  constructor
  · rintro ⟨accepts, _⟩ others
    have accepted := validateProgram_eq_none_iff_otherwise.mpr others
    exact (wellFormed_iff.mp (accepts.mp accepted)).2
  · intro conversions
    have wellFormed : validateProgram program = none →
        WellFormed program := fun accepted =>
      have others := validateProgram_eq_none_iff_otherwise.mp accepted
      wellFormed_iff.mpr ⟨others, conversions others⟩
    refine ⟨⟨wellFormed, fun formed => ?_⟩, ?_⟩
    · exact validateProgram_eq_none_iff_otherwise.mpr
        (wellFormed_iff.mp formed).1
    · intro accepted host vm reached idx
      exact (wellFormed accepted).step_ne_registerIndex reached.installed idx

/-- `I2F 0 243`: operand `b` is one past the register file. -/
def conversionPastEnd : Program where
  insns := [{ opcode := .i2F, a := 0, b := 243, c := 0 }]
  axionPolicyText := []
  fits := by decide

/-- The validator accepts a conversion of a register that does not exist. -/
theorem not_validatorAgrees_conversionPastEnd :
    ¬ ValidatorAgrees conversionPastEnd := by
  intro agrees
  have accepted : validateProgram conversionPastEnd = none := rfl
  have reached : Reachable strictHost conversionPastEnd
      (freshlyLoaded conversionPastEnd) :=
    ⟨_, [], [], loads_freshlyLoaded rfl, by simp, rfl⟩
  exact agrees.safe accepted strictHost _ reached 243 rfl

end T81VM.VM
