import T81VM.Library.Fallible
import T81VM.VM.Dispatch

/-!
# Where an instruction can get stuck

`registerOperands` lists the operands the dispatch loop uses as register
indices, and `Obstacle` every reason for which an instruction does not
return.  `execute_obstacle` shows that there is no other.
-/

namespace T81VM.VM

open Tisc Fallible

inductive Operand where
  | a | b | c
  deriving DecidableEq, Repr

/-- The value of an operand. -/
def operandOf (insn : Insn) : Operand → Int64
  | .a => insn.a
  | .b => insn.b
  | .c => insn.c

/-- The operands that index `registers` or `register_tags`. -/
def registerOperands : Opcode → List Operand
  | .nop | .halt | .ret | .trap | .undefined _
  | .jump | .jumpIfZero | .jumpIfNotZero | .jumpIfNegative
  | .jumpIfPositive => []
  | .loadImm | .load | .inc | .dec | .push | .pop | .call
  | .axRead | .axVerify | .weightsLoad
  | .makeOptionNone | .makeEnumVariant
  | .stackAlloc | .stackFree | .heapAlloc | .heapFree => [.a]
  | .store => [.b]
  | .mov | .i2F | .f2I | .i2Frac | .frac2I | .neg | .tNot
  | .cmp | .axSet | .setF
  | .tTranspose | .tExp | .tSqrt | .tSiLU | .tSoftmax | .tRMSNorm | .tRoPE
  | .makeOptionSome | .makeResultOk | .makeResultErr
  | .optionIsSome | .optionUnwrap
  | .resultIsOk | .resultUnwrapOk | .resultUnwrapErr
  | .makeEnumVariantPayload | .enumIsVariant
  | .enumUnwrapPayload => [.a, .b]
  | .add | .sub | .mul | .div | .mod
  | .fAdd | .fSub | .fMul | .fDiv
  | .fracAdd | .fracSub | .fracMul | .fracDiv
  | .less | .lessEqual | .greater | .greaterEqual | .equal | .notEqual
  | .tAnd | .tOr | .tXor
  | .tVecAdd | .tMatMul | .tTenDot | .tVecMul | .chkShape => [.a, .b, .c]

/-- The tensor the handle in a register denotes. -/
def Interpreter.tensorOf (vm : Interpreter) (idx : Int64) :
    Option TensorValue :=
  match vm.register idx with
  | .ok handle => vm.tensorPtr handle
  | .error _ => none

/-- The operands of a binary tensor opcode that passed its guards. -/
def TensorOperands (vm : Interpreter) (insn : Insn)
    (lhs rhs : TensorValue) : Prop :=
  vm.tagsAre insn .tensorHandle .tensorHandle = .ok true ∧
    vm.tensorOf insn.b = some lhs ∧ vm.tensorOf insn.c = some rhs

/-- The operand of a unary tensor opcode that passed its guards. -/
def TensorOperand (vm : Interpreter) (insn : Insn)
    (input : TensorValue) : Prop :=
  vm.tagIs insn.b .tensorHandle = .ok true ∧ vm.tensorOf insn.b = some input

/-- The reasons for which an instruction does not return. -/
inductive Obstacle (host : Host) (vm : Interpreter) (insn : Insn)
    (pc : Nat) : Stuck → Prop where
  | operand (operand : Operand)
      (used : operand ∈ registerOperands insn.opcode)
      (outside : 243 ≤ toSize (operandOf insn operand)) :
      Obstacle host vm insn pc (.registerIndex (operandOf insn operand))
  | arithmetic {lhs rhs : Int64} {stuck : Stuck}
      (left : vm.register insn.b = .ok lhs)
      (right : vm.register insn.c = .ok rhs)
      (divisor : ¬ (Interpreter.divides insn.opcode && rhs == 0) = true)
      (failed : Interpreter.arithmeticResult host insn.opcode lhs rhs =
        .error stuck) :
      Obstacle host vm insn pc stuck
  | incremented {old : Int64} {stuck : Stuck} (opcode : insn.opcode = .inc)
      (read : vm.register insn.a = .ok old)
      (failed : host.signed (.add old 1) = .error stuck) :
      Obstacle host vm insn pc stuck
  | decremented {old : Int64} {stuck : Stuck} (opcode : insn.opcode = .dec)
      (read : vm.register insn.a = .ok old)
      (failed : host.signed (.sub old 1) = .error stuck) :
      Obstacle host vm insn pc stuck
  | compared {lhs rhs : Int64} {stuck : Stuck} (opcode : insn.opcode = .cmp)
      (left : vm.register insn.a = .ok lhs)
      (right : vm.register insn.b = .ok rhs)
      (failed : host.signed (.sub lhs rhs) = .error stuck) :
      Obstacle host vm insn pc stuck
  | negated {value : Int64} {stuck : Stuck} (opcode : insn.opcode = .neg)
      (read : vm.register insn.b = .ok value)
      (failed : host.signed (.neg value) = .error stuck) :
      Obstacle host vm insn pc stuck
  | weights {stuck : Stuck} (opcode : insn.opcode = .weightsLoad)
      (failed : Interpreter.weightsHandle host insn pc = .error stuck) :
      Obstacle host vm insn pc stuck
  | memory (addr : Nat) : Obstacle host vm insn pc (.memoryIndex addr)
  | full : Obstacle host vm insn pc (.exception .lengthError)
  | vector {lhs rhs : TensorValue} {stuck : Stuck}
      (opcode : insn.opcode = .tVecAdd ∨ insn.opcode = .tVecMul)
      (operands : TensorOperands vm insn lhs rhs)
      (shapes : lhs.shape.length = 1 ∧ lhs.shape = rhs.shape ∧
        lhs.data.length = rhs.data.length)
      (failed : vectorCombine host
        (if insn.opcode = .tVecAdd then .add else .mul) lhs.data rhs.data =
          .error stuck) :
      Obstacle host vm insn pc stuck
  | matMul {lhs rhs : TensorValue} {rows inner rhsInner cols : Int64}
      {stuck : Stuck}
      (opcode : insn.opcode = .tMatMul)
      (operands : TensorOperands vm insn lhs rhs)
      (shapes : lhs.shape = [rows, inner] ∧ rhs.shape = [rhsInner, cols] ∧
        toSize inner = toSize rhsInner)
      (sizes : lhs.data.length = wrapSize (toSize rows * toSize inner) ∧
        rhs.data.length = wrapSize (toSize rhsInner * toSize cols))
      (failed : matMulData host lhs.data rhs.data (toSize rows)
        (toSize inner) (toSize cols) = .error stuck) :
      Obstacle host vm insn pc stuck
  | tenDot {lhs rhs : TensorValue} {stuck : Stuck}
      (opcode : insn.opcode = .tTenDot)
      (operands : TensorOperands vm insn lhs rhs)
      (sizes : lhs.data.length = rhs.data.length)
      (failed : tenDotData host lhs.data rhs.data = .error stuck) :
      Obstacle host vm insn pc stuck
  | transpose {input : TensorValue} {rows cols : Nat} {stuck : Stuck}
      (failed : transposeData input.data rows cols = .error stuck) :
      Obstacle host vm insn pc stuck
  | rotated {input : TensorValue} {stuck : Stuck}
      (opcode : insn.opcode = .tRoPE)
      (operand : TensorOperand vm insn input)
      (paired : input.data.length % 2 = 0)
      (failed : rotatePairs host input.data = .error stuck) :
      Obstacle host vm insn pc stuck

namespace Interpreter

variable {host : Host} {vm : Interpreter} {insn : Insn} {pc : Nat}

theorem registerIndex_meets (operand : Operand)
    (used : operand ∈ registerOperands insn.opcode) :
    FailsOnly (Obstacle host vm insn pc)
      (registerIndex (operandOf insn operand)) := by
  unfold registerIndex
  split
  · trivial
  · rename_i outside
    exact .operand operand used (Nat.le_of_not_gt outside)

theorem register_meets (other : Interpreter) (operand : Operand)
    (used : operand ∈ registerOperands insn.opcode) :
    FailsOnly (Obstacle host vm insn pc)
      (other.register (operandOf insn operand)) :=
  (registerIndex_meets operand used).bind fun _ _ => trivial

theorem registerTag_meets (other : Interpreter) (operand : Operand)
    (used : operand ∈ registerOperands insn.opcode) :
    FailsOnly (Obstacle host vm insn pc)
      (other.registerTag (operandOf insn operand)) :=
  (registerIndex_meets operand used).bind fun _ _ => trivial

theorem setRegisterValue_meets (other : Interpreter) {value : Int64}
    {tag : ValueTag} (used : .a ∈ registerOperands insn.opcode) :
    FailsOnly (Obstacle host vm insn pc)
      (other.setRegisterValue insn.a value tag) :=
  (registerIndex_meets .a used).bind fun _ _ => trivial

theorem finishWrite_meets (other : Interpreter) {value : Int64}
    {tag : ValueTag} (used : .a ∈ registerOperands insn.opcode) :
    FailsOnly (Obstacle host vm insn pc)
      (other.finishWrite insn pc value tag) :=
  (setRegisterValue_meets other used).bind fun middle _ =>
    (register_meets middle .a used).bind fun _ _ => trivial

theorem memoryAt_meets {addr : Nat} :
    FailsOnly (Obstacle host vm insn pc) (vm.memoryAt addr) := by
  unfold memoryAt
  split
  · trivial
  · exact .memory addr

theorem setMemory_meets (other : Interpreter) {addr : Nat} {value : Int64} :
    FailsOnly (Obstacle host vm insn pc) (other.setMemory addr value) := by
  unfold setMemory
  split
  · trivial
  · exact .memory addr

/-! ## Branches over registers and memory -/

theorem executeLoadImm_meets
    (operands : registerOperands insn.opcode = [.a]) :
    FailsOnly (Obstacle host vm insn pc) (vm.executeLoadImm insn pc) :=
  (setRegisterValue_meets vm (by simp [operands])).bind fun _ _ => trivial

theorem executeLoad_meets (operands : registerOperands insn.opcode = [.a]) :
    FailsOnly (Obstacle host vm insn pc) (vm.executeLoad insn pc) := by
  unfold executeLoad
  split
  · trivial
  · exact memoryAt_meets.bind fun _ _ =>
      finishWrite_meets vm (by simp [operands])

theorem executeStore_meets (operands : registerOperands insn.opcode = [.b]) :
    FailsOnly (Obstacle host vm insn pc) (vm.executeStore insn pc) := by
  unfold executeStore
  split
  · trivial
  · exact (register_meets vm .b (by simp [operands])).bind fun _ _ =>
      (setMemory_meets vm).bind fun _ _ => trivial

theorem executeArithmetic_meets
    (operands : registerOperands insn.opcode = [.a, .b, .c]) :
    FailsOnly (Obstacle host vm insn pc)
      (vm.executeArithmetic host insn pc) := by
  refine (register_meets vm .b (by simp [operands])).bind
    fun lhs left => ?_
  refine (register_meets vm .c (by simp [operands])).bind
    fun rhs right => ?_
  split
  · trivial
  · rename_i divisor
    refine (failsOnly_of_error fun stuck failed =>
      .arithmetic left right divisor failed).bind fun result _ => ?_
    exact (setRegisterValue_meets vm (by simp [operands])).bind
      fun _ _ => trivial

theorem executeMove_meets
    (operands : registerOperands insn.opcode = [.a, .b]) :
    FailsOnly (Obstacle host vm insn pc) (vm.executeMove insn pc) := by
  refine (register_meets vm .b (by simp [operands])).bind fun value _ => ?_
  refine (registerTag_meets vm .b (by simp [operands])).bind fun tag _ => ?_
  exact finishWrite_meets vm (by simp [operands])

theorem executeInc_meets (opcode : insn.opcode = .inc) :
    FailsOnly (Obstacle host vm insn pc)
      (vm.executeBump host insn pc (.add · 1)) := by
  have used : Operand.a ∈ registerOperands insn.opcode := by
    rw [opcode]
    exact List.mem_cons_self
  refine (register_meets vm .a used).bind fun old read => ?_
  refine (failsOnly_of_error fun stuck failed =>
    .incremented opcode read failed).bind fun value _ => ?_
  exact (registerIndex_meets .a used).bind fun _ _ => trivial

theorem executeDec_meets (opcode : insn.opcode = .dec) :
    FailsOnly (Obstacle host vm insn pc)
      (vm.executeBump host insn pc (.sub · 1)) := by
  have used : Operand.a ∈ registerOperands insn.opcode := by
    rw [opcode]
    exact List.mem_cons_self
  refine (register_meets vm .a used).bind fun old read => ?_
  refine (failsOnly_of_error fun stuck failed =>
    .decremented opcode read failed).bind fun value _ => ?_
  exact (registerIndex_meets .a used).bind fun _ _ => trivial

theorem executeCmp_meets (opcode : insn.opcode = .cmp) :
    FailsOnly (Obstacle host vm insn pc) (vm.executeCmp host insn pc) := by
  have operands : registerOperands insn.opcode = [.a, .b] :=
    congrArg registerOperands opcode
  refine (register_meets vm .a (by simp [operands])).bind
    fun lhs left => ?_
  refine (register_meets vm .b (by simp [operands])).bind
    fun rhs right => ?_
  exact (failsOnly_of_error fun stuck failed =>
    .compared opcode left right failed).bind fun _ _ => trivial

theorem executeNeg_meets (opcode : insn.opcode = .neg) :
    FailsOnly (Obstacle host vm insn pc) (vm.executeNeg host insn pc) := by
  have operands : registerOperands insn.opcode = [.a, .b] :=
    congrArg registerOperands opcode
  refine (register_meets vm .b (by simp [operands])).bind
    fun value read => ?_
  refine (failsOnly_of_error fun stuck failed =>
    .negated opcode read failed).bind fun negated _ => ?_
  exact finishWrite_meets vm (by simp [operands])

/-- A clamped value is a trit. -/
theorem clampTrit_mem (value : Int64) :
    clampTrit value = -1 ∨ clampTrit value = 0 ∨ clampTrit value = 1 := by
  unfold clampTrit
  split
  · exact .inr (.inr rfl)
  · rename_i low
    split
    · exact .inl rfl
    · rename_i high
      simp only [tritMax, tritMin, Int64.lt_iff_toInt_lt] at low high
      have bounds : -1 ≤ value.toInt ∧ value.toInt ≤ 1 := by
        simpa [Int64.le_iff_toInt_le] using And.intro high low
      obtain ⟨lower, upper⟩ := bounds
      have cases : value.toInt = (-1 : Int64).toInt ∨
          value.toInt = (0 : Int64).toInt ∨
          value.toInt = (1 : Int64).toInt := by
        simp
        omega
      exact cases.imp Int64.toInt_inj.mp
        (Or.imp Int64.toInt_inj.mp Int64.toInt_inj.mp)

/-- Arithmetic on trits is defined. -/
theorem signed_trit_eq_ok (host : Host) (lhs rhs : Int64) :
    (∃ value, host.signed (.neg (clampTrit lhs)) = .ok value) ∧
      ∃ value, host.signed (.sub (clampTrit lhs) (clampTrit rhs)) =
        .ok value := by
  have negDefined : (SignedOp.neg (clampTrit lhs)).Defined := by
    rcases clampTrit_mem lhs with same | same | same <;> rw [same] <;> decide
  have subDefined : (SignedOp.sub (clampTrit lhs) (clampTrit rhs)).Defined := by
    rcases clampTrit_mem lhs with same | same | same <;>
      rcases clampTrit_mem rhs with other | other | other <;>
        rw [same, other] <;> decide
  exact ⟨⟨_, host.signed_of_defined negDefined⟩,
    ⟨_, host.signed_of_defined subDefined⟩⟩

theorem executeTNot_meets
    (operands : registerOperands insn.opcode = [.a, .b]) :
    FailsOnly (Obstacle host vm insn pc) (vm.executeTNot host insn pc) := by
  refine (register_meets vm .b (by simp [operands])).bind fun value _ => ?_
  obtain ⟨negated, evaluated⟩ := (signed_trit_eq_ok host value value).1
  rw [evaluated]
  exact finishWrite_meets vm (by simp [operands])

theorem tritResult_eq_ok (host : Host) (opcode : Opcode) (lhs rhs : Int64) :
    ∃ value, tritResult host opcode (clampTrit lhs) (clampTrit rhs) =
      .ok value := by
  unfold tritResult
  split
  · exact ⟨_, rfl⟩
  · exact ⟨_, rfl⟩
  · obtain ⟨difference, evaluated⟩ := (signed_trit_eq_ok host lhs rhs).2
    exact ⟨_, bind_eq_ok.mpr ⟨difference, evaluated, rfl⟩⟩

theorem executeTrit_meets
    (operands : registerOperands insn.opcode = [.a, .b, .c]) :
    FailsOnly (Obstacle host vm insn pc) (vm.executeTrit host insn pc) := by
  refine (register_meets vm .b (by simp [operands])).bind fun lhs _ => ?_
  refine (register_meets vm .c (by simp [operands])).bind fun rhs _ => ?_
  obtain ⟨result, evaluated⟩ := tritResult_eq_ok host insn.opcode lhs rhs
  rw [evaluated]
  exact finishWrite_meets vm (by simp [operands])

theorem executeCompare_meets
    (operands : registerOperands insn.opcode = [.a, .b, .c]) :
    FailsOnly (Obstacle host vm insn pc) (vm.executeCompare insn pc) := by
  refine (register_meets vm .b (by simp [operands])).bind fun lhs _ => ?_
  refine (register_meets vm .c (by simp [operands])).bind fun rhs _ => ?_
  exact finishWrite_meets vm (by simp [operands])

theorem executeSetF_meets
    (operands : registerOperands insn.opcode = [.a, .b]) :
    FailsOnly (Obstacle host vm insn pc) (vm.executeSetF insn pc) := by
  refine (register_meets vm .b (by simp [operands])).bind fun value _ => ?_
  exact finishWrite_meets vm (by simp [operands])

theorem executeWeightsLoad_meets (opcode : insn.opcode = .weightsLoad) :
    FailsOnly (Obstacle host vm insn pc)
      (vm.executeWeightsLoad host insn pc) := by
  have used : Operand.a ∈ registerOperands insn.opcode := by
    rw [opcode]
    exact List.mem_cons_self
  refine (failsOnly_of_error fun stuck failed =>
    .weights opcode failed).bind fun handle _ => ?_
  refine (setRegisterValue_meets vm used).bind fun middle _ => ?_
  exact (register_meets _ .a used).bind fun _ _ => trivial

theorem executePush_meets (operands : registerOperands insn.opcode = [.a]) :
    FailsOnly (Obstacle host vm insn pc) (vm.executePush insn pc) := by
  refine FailsOnly.bind ?_ fun outcome _ => by cases outcome <;> trivial
  unfold pushRegister
  split
  · trivial
  · exact (register_meets vm .a (by simp [operands])).bind fun _ _ =>
      (setMemory_meets _).bind fun _ _ => trivial

theorem executePop_meets (operands : registerOperands insn.opcode = [.a]) :
    FailsOnly (Obstacle host vm insn pc) (vm.executePop insn pc) := by
  have used : Operand.a ∈ registerOperands insn.opcode := by simp [operands]
  refine FailsOnly.bind ?_ fun outcome _ => ?_
  · unfold popRegister
    split
    · trivial
    · exact memoryAt_meets.bind fun _ _ =>
        (registerIndex_meets .a used).bind fun _ _ => trivial
  · cases outcome with
    | none => trivial
    | some popped =>
        exact (register_meets popped .a used).bind fun _ _ => trivial

theorem checkJumpTarget_meets {target : Int64} :
    FailsOnly (Obstacle host vm insn pc)
      (vm.checkJumpTarget insn pc target) := by
  unfold checkJumpTarget
  split <;> trivial

theorem executeJumpIf_meets {condition : Bool} :
    FailsOnly (Obstacle host vm insn pc)
      (vm.executeJumpIf insn pc condition) := by
  unfold executeJumpIf
  split
  · exact checkJumpTarget_meets
  · trivial

theorem executeCall_meets (operands : registerOperands insn.opcode = [.a]) :
    FailsOnly (Obstacle host vm insn pc) (vm.executeCall insn pc) := by
  refine (register_meets vm .a (by simp [operands])).bind fun target _ => ?_
  split <;> trivial

theorem executeRet_meets :
    FailsOnly (Obstacle host vm insn pc) (vm.executeRet insn pc) := by
  unfold executeRet
  split <;> trivial

theorem executeAxRead_meets
    (operands : registerOperands insn.opcode = [.a]) :
    FailsOnly (Obstacle host vm insn pc) (vm.executeAxRead insn pc) := by
  unfold executeAxRead
  simp only
  split
  · trivial
  · exact finishWrite_meets _ (by simp [operands])

theorem executeAxSet_meets
    (operands : registerOperands insn.opcode = [.a, .b]) :
    FailsOnly (Obstacle host vm insn pc) (vm.executeAxSet insn pc) := by
  refine (register_meets vm .b (by simp [operands])).bind fun value _ => ?_
  refine (register_meets vm .a (by simp [operands])).bind fun addr _ => ?_
  simp only
  split <;> trivial

theorem executeAxVerify_meets
    (operands : registerOperands insn.opcode = [.a]) :
    FailsOnly (Obstacle host vm insn pc) (vm.executeAxVerify insn pc) := by
  unfold executeAxVerify
  simp only
  split
  · trivial
  · exact finishWrite_meets _ (by simp [operands])

theorem executeStackAlloc_meets
    (operands : registerOperands insn.opcode = [.a]) :
    FailsOnly (Obstacle host vm insn pc) (vm.executeStackAlloc insn pc) := by
  unfold executeStackAlloc
  simp only
  split
  · trivial
  · split
    · trivial
    · exact (setRegisterValue_meets _ (by simp [operands])).bind
        fun _ _ => trivial

theorem executeStackFree_meets
    (operands : registerOperands insn.opcode = [.a]) :
    FailsOnly (Obstacle host vm insn pc) (vm.executeStackFree insn pc) := by
  unfold executeStackFree
  split
  · trivial
  · refine (register_meets vm .a (by simp [operands])).bind
      fun expected _ => ?_
    split <;> trivial

theorem executeHeapAlloc_meets
    (operands : registerOperands insn.opcode = [.a]) :
    FailsOnly (Obstacle host vm insn pc) (vm.executeHeapAlloc insn pc) := by
  unfold executeHeapAlloc
  simp only
  split
  · trivial
  · split
    · trivial
    · exact (setRegisterValue_meets _ (by simp [operands])).bind
        fun _ _ => trivial

theorem executeHeapFree_meets
    (operands : registerOperands insn.opcode = [.a]) :
    FailsOnly (Obstacle host vm insn pc) (vm.executeHeapFree insn pc) := by
  unfold executeHeapFree
  split
  · trivial
  · refine (register_meets vm .a (by simp [operands])).bind
      fun expected _ => ?_
    split <;> trivial

/-! ## Branches over the pools -/

theorem appendPool_meets {α : Type} {pool : List α} {value : α} :
    FailsOnly (Obstacle host vm insn pc) (appendPool pool value) := by
  unfold appendPool
  split
  · trivial
  · exact .full

/-- Interning a value and writing its handle. -/
theorem interned_meets {α : Type} {pool : List α} {value : α}
    {update : List α → Interpreter} {tag : ValueTag}
    (used : .a ∈ registerOperands insn.opcode) :
    FailsOnly (Obstacle host vm insn pc) (do
      let (handle, vm) ← (do
        let grown ← appendPool pool value
        return (ofSize grown.length, update grown))
      vm.finishWrite insn pc handle tag) :=
  FailsOnly.bind (appendPool_meets.bind fun _ _ => trivial)
    fun answer _ => finishWrite_meets answer.2 used

theorem payloadOf_meets (used : .b ∈ registerOperands insn.opcode) :
    FailsOnly (Obstacle host vm insn pc) (vm.payloadOf insn.b) :=
  (registerTag_meets vm .b used).bind fun _ _ =>
    (register_meets vm .b used).bind fun _ _ => trivial

theorem executeMakeOptionSome_meets
    (operands : registerOperands insn.opcode = [.a, .b]) :
    FailsOnly (Obstacle host vm insn pc)
      (vm.executeMakeOptionSome insn pc) :=
  (payloadOf_meets (by simp [operands])).bind fun _ _ =>
    interned_meets (by simp [operands])

theorem executeMakeOptionNone_meets
    (operands : registerOperands insn.opcode = [.a]) :
    FailsOnly (Obstacle host vm insn pc)
      (vm.executeMakeOptionNone insn pc) :=
  interned_meets (by simp [operands])

theorem executeMakeResult_meets {isOk : Bool}
    (operands : registerOperands insn.opcode = [.a, .b]) :
    FailsOnly (Obstacle host vm insn pc)
      (vm.executeMakeResult insn pc isOk) :=
  (payloadOf_meets (by simp [operands])).bind fun _ _ =>
    interned_meets (by simp [operands])

theorem executeMakeEnumVariant_meets
    (operands : registerOperands insn.opcode = [.a]) :
    FailsOnly (Obstacle host vm insn pc)
      (vm.executeMakeEnumVariant insn pc) :=
  interned_meets (by simp [operands])

theorem executeMakeEnumVariantPayload_meets
    (operands : registerOperands insn.opcode = [.a, .b]) :
    FailsOnly (Obstacle host vm insn pc)
      (vm.executeMakeEnumVariantPayload insn pc) := by
  unfold executeMakeEnumVariantPayload
  split
  · trivial
  · exact (payloadOf_meets (by simp [operands])).bind fun _ _ =>
      interned_meets (by simp [operands])

theorem tagIs_meets (operand : Operand) {tag : ValueTag}
    (used : operand ∈ registerOperands insn.opcode) :
    FailsOnly (Obstacle host vm insn pc)
      (vm.tagIs (operandOf insn operand) tag) :=
  (registerTag_meets vm operand used).bind fun _ _ => trivial

theorem withHandle_meets {α : Type} {tag : ValueTag}
    {lookup : Int64 → Option α} {inspect : α → Option (Int64 × ValueTag)}
    (operands : registerOperands insn.opcode = [.a, .b]) :
    FailsOnly (Obstacle host vm insn pc)
      (vm.withHandle insn pc tag lookup inspect) := by
  refine (tagIs_meets .b (by simp [operands])).bind fun tagged _ => ?_
  split
  · trivial
  · refine (register_meets vm .b (by simp [operands])).bind
      fun handle _ => ?_
    split
    · exact finishWrite_meets vm (by simp [operands])
    · trivial

/-! ## Branches over tensors -/

theorem tensorOf_eq_some {idx handle : Int64} {tensor : TensorValue}
    (read : vm.register idx = .ok handle)
    (found : vm.tensorPtr handle = some tensor) :
    vm.tensorOf idx = some tensor := by
  simp [tensorOf, read, found]

theorem finishTensor_meets {shape data : List Int64}
    (used : .a ∈ registerOperands insn.opcode) :
    FailsOnly (Obstacle host vm insn pc)
      (vm.finishTensor insn pc shape data) :=
  interned_meets used

theorem tagsAre_meets {left right : ValueTag}
    (operands : registerOperands insn.opcode = [.a, .b, .c]) :
    FailsOnly (Obstacle host vm insn pc) (vm.tagsAre insn left right) := by
  refine (tagIs_meets .b (by simp [operands])).bind fun fits _ => ?_
  split
  · exact tagIs_meets .c (by simp [operands])
  · trivial

/-- The guards of a binary tensor opcode fail as its register operands do. -/
theorem withTensorPair_rule {reasons : Stuck → Prop}
    {post : Expected × Interpreter → Prop}
    {compute : TensorValue → TensorValue → Outcome}
    (leftIndex : FailsOnly reasons (registerIndex insn.b))
    (rightIndex : FailsOnly reasons (registerIndex insn.c))
    (trapped : ∀ code, post (vm.trap code insn.opcode pc))
    (computes : ∀ lhs rhs, TensorOperands vm insn lhs rhs →
      Meets reasons post (compute lhs rhs)) :
    Meets reasons post (vm.withTensorPair insn pc compute) := by
  have readTag : ∀ {idx : Int64} {tag : ValueTag},
      FailsOnly reasons (registerIndex idx) →
        FailsOnly reasons (vm.tagIs idx tag) :=
    fun read => FailsOnly.bind (read.bind fun _ _ => trivial)
      fun _ _ => trivial
  have tags : FailsOnly reasons
      (vm.tagsAre insn .tensorHandle .tensorHandle) := by
    refine (readTag leftIndex).bind fun fits _ => ?_
    split
    · exact readTag rightIndex
    · trivial
  refine tags.bind fun tagged isTagged => ?_
  cases tagged with
  | false => exact trapped .typeFault
  | true =>
      refine FailsOnly.bind (leftIndex.bind fun _ _ => trivial)
        fun lhs left => ?_
      refine FailsOnly.bind (rightIndex.bind fun _ _ => trivial)
        fun rhs right => ?_
      split
      · rename_i leftFound rightFound
        exact computes _ _ ⟨isTagged, tensorOf_eq_some left leftFound,
          tensorOf_eq_some right rightFound⟩
      · exact trapped .decodeFault

/-- The guards of a unary tensor opcode fail as its register operand does. -/
theorem withTensor_rule {reasons : Stuck → Prop}
    {post : Expected × Interpreter → Prop} {compute : TensorValue → Outcome}
    (index : FailsOnly reasons (registerIndex insn.b))
    (trapped : ∀ code, post (vm.trap code insn.opcode pc))
    (computes : ∀ input, TensorOperand vm insn input →
      Meets reasons post (compute input)) :
    Meets reasons post (vm.withTensor insn pc compute) := by
  have tag : FailsOnly reasons (vm.tagIs insn.b .tensorHandle) :=
    FailsOnly.bind (index.bind fun _ _ => trivial) fun _ _ => trivial
  refine tag.bind fun tagged isTagged => ?_
  cases tagged with
  | false => exact trapped .typeFault
  | true =>
      refine FailsOnly.bind (index.bind fun _ _ => trivial)
        fun handle read => ?_
      split
      · rename_i found
        exact computes _ ⟨isTagged, tensorOf_eq_some read found⟩
      · exact trapped .decodeFault

theorem withTensorPair_meets {compute : TensorValue → TensorValue → Outcome}
    (operands : registerOperands insn.opcode = [.a, .b, .c])
    (computes : ∀ lhs rhs, TensorOperands vm insn lhs rhs →
      FailsOnly (Obstacle host vm insn pc) (compute lhs rhs)) :
    FailsOnly (Obstacle host vm insn pc)
      (vm.withTensorPair insn pc compute) :=
  withTensorPair_rule (registerIndex_meets .b (by simp [operands]))
    (registerIndex_meets .c (by simp [operands])) (fun _ => trivial) computes

theorem withTensor_meets {compute : TensorValue → Outcome}
    (operands : registerOperands insn.opcode = [.a, .b])
    (computes : ∀ input, TensorOperand vm insn input →
      FailsOnly (Obstacle host vm insn pc) (compute input)) :
    FailsOnly (Obstacle host vm insn pc)
      (vm.withTensor insn pc compute) :=
  withTensor_rule (registerIndex_meets .b (by simp [operands]))
    (fun _ => trivial) computes

theorem executeVector_meets
    (opcode : insn.opcode = .tVecAdd ∨ insn.opcode = .tVecMul)
    (operands : registerOperands insn.opcode = [.a, .b, .c]) :
    FailsOnly (Obstacle host vm insn pc) (vm.executeVector host insn pc) := by
  refine withTensorPair_meets operands fun lhs rhs tensors => ?_
  split
  · trivial
  · rename_i shapes
    simp only [not_or, not_not] at shapes
    exact (failsOnly_of_error fun stuck failed =>
      .vector opcode tensors ⟨shapes.1, shapes.2.2⟩ failed).bind fun _ _ =>
        finishTensor_meets (by simp [operands])

theorem executeTMatMul_meets (opcode : insn.opcode = .tMatMul) :
    FailsOnly (Obstacle host vm insn pc)
      (vm.executeTMatMul host insn pc) := by
  have operands : registerOperands insn.opcode = [.a, .b, .c] :=
    congrArg registerOperands opcode
  refine withTensorPair_meets operands fun lhs rhs tensors => ?_
  split
  · rename_i rows inner rhsInner cols leftShape rightShape
    simp only
    split
    · trivial
    · rename_i sizes
      simp only [not_or, not_not] at sizes
      exact (failsOnly_of_error fun stuck failed =>
        .matMul opcode tensors ⟨leftShape, rightShape, sizes.1⟩ sizes.2
          failed).bind fun _ _ => finishTensor_meets (by simp [operands])
  · trivial

theorem executeTTenDot_meets (opcode : insn.opcode = .tTenDot) :
    FailsOnly (Obstacle host vm insn pc)
      (vm.executeTTenDot host insn pc) := by
  have operands : registerOperands insn.opcode = [.a, .b, .c] :=
    congrArg registerOperands opcode
  refine withTensorPair_meets operands fun lhs rhs tensors => ?_
  split
  · trivial
  · rename_i sizes
    exact (failsOnly_of_error fun stuck failed =>
      .tenDot opcode tensors (not_not.mp sizes) failed).bind fun _ _ =>
        finishTensor_meets (by simp [operands])

theorem executeTTranspose_meets
    (operands : registerOperands insn.opcode = [.a, .b]) :
    FailsOnly (Obstacle host vm insn pc)
      (vm.executeTTranspose insn pc) := by
  refine withTensor_meets operands fun input _ => ?_
  split
  · simp only
    split
    · trivial
    · exact (failsOnly_of_error fun stuck failed =>
        .transpose failed).bind fun _ _ =>
          finishTensor_meets (by simp [operands])
  · trivial

/-- Only the rotation computes with signed operations. -/
theorem activationData_meets {input : TensorValue}
    (operand : TensorOperand vm insn input) :
    FailsOnly (Obstacle host vm insn pc)
      (activationData host insn.opcode input.data) := by
  cases opcode : insn.opcode with
  | tRoPE =>
      rw [activationData]
      split
      · trivial
      · rename_i paired
        exact (failsOnly_of_error fun stuck failed =>
          .rotated opcode operand (not_not.mp paired) failed).bind
            fun _ _ => trivial
  | tSoftmax | tRMSNorm =>
      rw [activationData]
      split
      · trivial
      · split <;> trivial
  | _ => trivial

theorem executeActivation_meets
    (operands : registerOperands insn.opcode = [.a, .b]) :
    FailsOnly (Obstacle host vm insn pc)
      (vm.executeActivation host insn pc) := by
  refine withTensor_meets operands fun input operand => ?_
  refine (activationData_meets operand).bind fun out _ => ?_
  cases out with
  | none => trivial
  | some out => exact finishTensor_meets (by simp [operands])

theorem executeChkShape_meets
    (operands : registerOperands insn.opcode = [.a, .b, .c]) :
    FailsOnly (Obstacle host vm insn pc) (vm.executeChkShape insn pc) := by
  refine (tagsAre_meets operands).bind fun tagged _ => ?_
  split
  · trivial
  · refine (register_meets vm .b (by simp [operands])).bind
      fun tensor _ => ?_
    refine (register_meets vm .c (by simp [operands])).bind
      fun shape _ => ?_
    split
    · exact finishWrite_meets vm (by simp [operands])
    · trivial

/-! ## The switch -/

/-- An instruction gets stuck for one of the listed reasons only. -/
theorem execute_obstacle :
    FailsOnly (Obstacle host vm insn pc) (vm.execute host insn pc) := by
  unfold execute
  cases opcode : insn.opcode
  case nop | halt | trap => trivial
  case undefined => trivial
  case loadImm =>
    exact executeLoadImm_meets (congrArg registerOperands opcode)
  case load =>
    exact executeLoad_meets (congrArg registerOperands opcode)
  case store =>
    exact executeStore_meets (congrArg registerOperands opcode)
  case add | sub | mul | div | mod | fAdd | fSub | fMul | fDiv | fracAdd |
    fracSub | fracMul | fracDiv =>
    exact executeArithmetic_meets (congrArg registerOperands opcode)
  case mov | i2F | f2I | i2Frac | frac2I =>
    exact executeMove_meets (congrArg registerOperands opcode)
  case inc =>
    exact executeInc_meets opcode
  case dec =>
    exact executeDec_meets opcode
  case cmp =>
    exact executeCmp_meets opcode
  case neg =>
    exact executeNeg_meets opcode
  case tNot =>
    exact executeTNot_meets (congrArg registerOperands opcode)
  case tAnd | tOr | tXor =>
    exact executeTrit_meets (congrArg registerOperands opcode)
  case less | lessEqual | greater | greaterEqual | equal | notEqual =>
    exact executeCompare_meets (congrArg registerOperands opcode)
  case push =>
    exact executePush_meets (congrArg registerOperands opcode)
  case pop =>
    exact executePop_meets (congrArg registerOperands opcode)
  case jump =>
    exact checkJumpTarget_meets
  case jumpIfZero | jumpIfNotZero | jumpIfNegative | jumpIfPositive =>
    exact executeJumpIf_meets
  case call =>
    exact executeCall_meets (congrArg registerOperands opcode)
  case ret =>
    exact executeRet_meets
  case axRead =>
    exact executeAxRead_meets (congrArg registerOperands opcode)
  case axSet =>
    exact executeAxSet_meets (congrArg registerOperands opcode)
  case axVerify =>
    exact executeAxVerify_meets (congrArg registerOperands opcode)
  case tVecAdd =>
    exact executeVector_meets (.inl opcode) (congrArg registerOperands opcode)
  case tVecMul =>
    exact executeVector_meets (.inr opcode) (congrArg registerOperands opcode)
  case tMatMul =>
    exact executeTMatMul_meets opcode
  case tTenDot =>
    exact executeTTenDot_meets opcode
  case tTranspose =>
    exact executeTTranspose_meets (congrArg registerOperands opcode)
  case tExp | tSqrt | tSiLU | tSoftmax | tRMSNorm | tRoPE =>
    exact executeActivation_meets (congrArg registerOperands opcode)
  case chkShape =>
    exact executeChkShape_meets (congrArg registerOperands opcode)
  case weightsLoad =>
    exact executeWeightsLoad_meets opcode
  case setF =>
    exact executeSetF_meets (congrArg registerOperands opcode)
  case makeOptionSome =>
    exact executeMakeOptionSome_meets (congrArg registerOperands opcode)
  case makeOptionNone =>
    exact executeMakeOptionNone_meets (congrArg registerOperands opcode)
  case makeResultOk | makeResultErr =>
    exact executeMakeResult_meets (congrArg registerOperands opcode)
  case makeEnumVariant =>
    exact executeMakeEnumVariant_meets (congrArg registerOperands opcode)
  case makeEnumVariantPayload =>
    exact executeMakeEnumVariantPayload_meets (congrArg registerOperands
      opcode)
  case optionIsSome | optionUnwrap | resultIsOk | resultUnwrapOk |
    resultUnwrapErr | enumIsVariant | enumUnwrapPayload =>
    exact withHandle_meets (congrArg registerOperands opcode)
  case stackAlloc =>
    exact executeStackAlloc_meets (congrArg registerOperands opcode)
  case stackFree =>
    exact executeStackFree_meets (congrArg registerOperands opcode)
  case heapAlloc =>
    exact executeHeapAlloc_meets (congrArg registerOperands opcode)
  case heapFree =>
    exact executeHeapFree_meets (congrArg registerOperands opcode)

theorem step_obstacle {stuck : Stuck}
    (failed : vm.step host = .error stuck) :
    ∃ insn, vm.Fetches insn ∧
      Obstacle host vm.beginInsn insn vm.state.pc stuck := by
  unfold step at failed
  split at failed
  · contradiction
  · rename_i running
    split at failed
    · contradiction
    · rename_i accepted
      split at failed
      · contradiction
      · rename_i insn fetched
        exact ⟨insn, ⟨Bool.eq_false_iff.mpr running, accepted, fetched⟩,
          execute_obstacle.of_error failed⟩

end Interpreter

end T81VM.VM
