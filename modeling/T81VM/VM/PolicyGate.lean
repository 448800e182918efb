import T81VM.VM.TrapAtomicity

/-!
# The policy gate

The three Axion opcodes are the only code that reads the policy.  Two objects
that differ in their policy at most answer every other instruction alike, and
an Axion instruction decides by the tier before it writes anything.
-/

namespace T81VM.VM

open Tisc PartialSystem

/-- The opcodes behind the policy gate. -/
def guarded : Opcode → Bool
  | .axRead | .axSet | .axVerify => true
  | _ => false

namespace Interpreter

/-- The same object with another policy. -/
def withPolicy (vm : Interpreter) (policyText : Text)
    (policy : Option Policy) : Interpreter :=
  { vm with
    program := { vm.program with axionPolicyText := policyText }
    state := { vm.state with policy } }

/-- Two answers that differ in the policy at most. -/
abbrev SamePolicyless (policyText : Text) (policy : Option Policy) :
    Outcome → Outcome → Prop :=
  Agree fun left right => right = left.withPolicy policyText policy

variable {host : Host} {vm : Interpreter} {insn : Insn} {pc : Nat}
  (policyText : Text) (policy : Option Policy)

/-! ## Branches over registers and memory -/

theorem finishWrite_policyless {value : Int64} {tag : ValueTag} :
    SamePolicyless policyText policy (vm.finishWrite insn pc value tag)
      ((vm.withPolicy policyText policy).finishWrite insn pc value tag) := by
  rw [finishWrite_eq, finishWrite_eq]
  exact .bind fun reg _ => ⟨rfl, rfl⟩

theorem executeLoadImm_policyless :
    SamePolicyless policyText policy (vm.executeLoadImm insn pc)
      ((vm.withPolicy policyText policy).executeLoadImm insn pc) := by
  rw [executeLoadImm, executeLoadImm, setRegisterValue_bind,
    setRegisterValue_bind]
  exact .bind fun reg _ => ⟨rfl, rfl⟩

theorem executeLoad_policyless :
    SamePolicyless policyText policy (vm.executeLoad insn pc)
      ((vm.withPolicy policyText policy).executeLoad insn pc) := by
  refine .ite (fun _ => ⟨rfl, rfl⟩) fun _ => ?_
  exact .bind fun value _ => finishWrite_policyless policyText policy

/-- Logging a segment access does not look at the policy. -/
theorem logged_policyless {kind : MemorySegmentKind} :
    SamePolicyless policyText policy
      ((vm.logSegmentEvent insn.opcode kind).finish insn pc)
      (((vm.withPolicy policyText policy).logSegmentEvent insn.opcode
        kind).finish insn pc) := by
  rw [logSegmentEvent, logSegmentEvent]
  by_cases unknown : kind = .unknown
  · rw [if_pos unknown, if_pos unknown]
    exact ⟨rfl, rfl⟩
  · rw [if_neg unknown, if_neg unknown]
    exact ⟨rfl, rfl⟩

theorem executeStore_policyless :
    SamePolicyless policyText policy (vm.executeStore insn pc)
      ((vm.withPolicy policyText policy).executeStore insn pc) := by
  refine .ite (fun _ => ⟨rfl, rfl⟩) fun _ => .bind fun value _ => ?_
  rw [setMemory_bind, setMemory_bind]
  exact .ite (fun _ => logged_policyless policyText policy) fun _ => rfl

theorem executeArithmetic_policyless :
    SamePolicyless policyText policy (vm.executeArithmetic host insn pc)
      ((vm.withPolicy policyText policy).executeArithmetic host insn pc) := by
  refine .bind fun lhs _ => .bind fun rhs _ => ?_
  refine .ite (fun _ => ⟨rfl, rfl⟩) fun _ => .bind fun result _ => ?_
  rw [setRegisterValue_bind, setRegisterValue_bind]
  exact .bind fun reg _ => ⟨rfl, rfl⟩

theorem executeMove_policyless :
    SamePolicyless policyText policy (vm.executeMove insn pc)
      ((vm.withPolicy policyText policy).executeMove insn pc) :=
  .bind fun _ _ => .bind fun _ _ => finishWrite_policyless policyText policy

theorem executeBump_policyless {op : Int64 → SignedOp} :
    SamePolicyless policyText policy (vm.executeBump host insn pc op)
      ((vm.withPolicy policyText policy).executeBump host insn pc op) :=
  .bind fun _ _ => .bind fun _ _ => .bind fun _ _ => ⟨rfl, rfl⟩

theorem executeCmp_policyless :
    SamePolicyless policyText policy (vm.executeCmp host insn pc)
      ((vm.withPolicy policyText policy).executeCmp host insn pc) :=
  .bind fun _ _ => .bind fun _ _ => .bind fun _ _ => ⟨rfl, rfl⟩

theorem executeNeg_policyless :
    SamePolicyless policyText policy (vm.executeNeg host insn pc)
      ((vm.withPolicy policyText policy).executeNeg host insn pc) :=
  .bind fun _ _ => .bind fun _ _ => finishWrite_policyless policyText policy

theorem executeTNot_policyless :
    SamePolicyless policyText policy (vm.executeTNot host insn pc)
      ((vm.withPolicy policyText policy).executeTNot host insn pc) :=
  .bind fun _ _ => .bind fun _ _ => finishWrite_policyless policyText policy

theorem executeTrit_policyless :
    SamePolicyless policyText policy (vm.executeTrit host insn pc)
      ((vm.withPolicy policyText policy).executeTrit host insn pc) :=
  .bind fun _ _ => .bind fun _ _ => .bind fun _ _ =>
    finishWrite_policyless policyText policy

theorem executeCompare_policyless :
    SamePolicyless policyText policy (vm.executeCompare insn pc)
      ((vm.withPolicy policyText policy).executeCompare insn pc) :=
  .bind fun _ _ => .bind fun _ _ => finishWrite_policyless policyText policy

theorem executeSetF_policyless :
    SamePolicyless policyText policy (vm.executeSetF insn pc)
      ((vm.withPolicy policyText policy).executeSetF insn pc) :=
  .bind fun _ _ => finishWrite_policyless policyText policy

theorem executeWeightsLoad_policyless :
    SamePolicyless policyText policy (vm.executeWeightsLoad host insn pc)
      ((vm.withPolicy policyText policy).executeWeightsLoad host insn
        pc) := by
  refine .bind fun handle _ => ?_
  rw [setRegisterValue_bind, setRegisterValue_bind]
  exact .bind fun reg _ => .bind fun written _ => ⟨rfl, rfl⟩

theorem executePush_policyless :
    SamePolicyless policyText policy (vm.executePush insn pc)
      ((vm.withPolicy policyText policy).executePush insn pc) := by
  rw [executePush_eq, executePush_eq]
  refine .ite (fun _ => ⟨rfl, rfl⟩) fun _ => .bind fun value _ => ?_
  rw [setMemory_bind, setMemory_bind]
  exact .ite (fun _ => ⟨rfl, rfl⟩) fun _ => rfl

theorem executePop_policyless :
    SamePolicyless policyText policy (vm.executePop insn pc)
      ((vm.withPolicy policyText policy).executePop insn pc) := by
  rw [executePop_eq, executePop_eq]
  refine .ite (fun _ => ⟨rfl, rfl⟩) fun _ => .bind fun value _ => ?_
  exact .bind fun reg _ => .bind fun written _ => ⟨rfl, rfl⟩

theorem checkJumpTarget_policyless {target : Int64} :
    SamePolicyless policyText policy (vm.checkJumpTarget insn pc target)
      ((vm.withPolicy policyText policy).checkJumpTarget insn pc target) :=
  .ite (fun _ => ⟨rfl, rfl⟩) fun _ => ⟨rfl, rfl⟩

theorem executeJumpIf_policyless {condition : Bool} :
    SamePolicyless policyText policy (vm.executeJumpIf insn pc condition)
      ((vm.withPolicy policyText policy).executeJumpIf insn pc condition) :=
  .ite (fun _ => checkJumpTarget_policyless policyText policy)
    fun _ => ⟨rfl, rfl⟩

theorem executeCall_policyless :
    SamePolicyless policyText policy (vm.executeCall insn pc)
      ((vm.withPolicy policyText policy).executeCall insn pc) :=
  .bind fun _ _ => .ite (fun _ => ⟨rfl, rfl⟩) fun _ => ⟨rfl, rfl⟩

theorem executeRet_policyless :
    SamePolicyless policyText policy (vm.executeRet insn pc)
      ((vm.withPolicy policyText policy).executeRet insn pc) := by
  have stack : (vm.withPolicy policyText policy).callStack = vm.callStack :=
    rfl
  rw [executeRet, executeRet, stack]
  cases vm.callStack with
  | nil => exact ⟨rfl, rfl⟩
  | cons back callers => exact ⟨rfl, rfl⟩

theorem executeStackAlloc_policyless :
    SamePolicyless policyText policy (vm.executeStackAlloc insn pc)
      ((vm.withPolicy policyText policy).executeStackAlloc insn pc) := by
  refine .ite (fun _ => ⟨rfl, rfl⟩) fun _ => ?_
  refine .ite (fun _ => ⟨rfl, rfl⟩) fun _ => ?_
  rw [setRegisterValue_bind, setRegisterValue_bind]
  exact .bind fun _ _ => ⟨rfl, rfl⟩

theorem executeStackFree_policyless :
    SamePolicyless policyText policy (vm.executeStackFree insn pc)
      ((vm.withPolicy policyText policy).executeStackFree insn pc) := by
  have stack : (vm.withPolicy policyText policy).state.stackFrames =
      vm.state.stackFrames := rfl
  rw [executeStackFree, executeStackFree, stack]
  cases vm.state.stackFrames with
  | nil => exact ⟨rfl, rfl⟩
  | cons top frames =>
      exact .bind fun _ _ => .ite (fun _ => ⟨rfl, rfl⟩) fun _ => ⟨rfl, rfl⟩

theorem executeHeapAlloc_policyless :
    SamePolicyless policyText policy (vm.executeHeapAlloc insn pc)
      ((vm.withPolicy policyText policy).executeHeapAlloc insn pc) := by
  refine .ite (fun _ => ⟨rfl, rfl⟩) fun _ => ?_
  refine .ite (fun _ => ⟨rfl, rfl⟩) fun _ => ?_
  rw [setRegisterValue_bind, setRegisterValue_bind]
  exact .bind fun _ _ => ⟨rfl, rfl⟩

theorem executeHeapFree_policyless :
    SamePolicyless policyText policy (vm.executeHeapFree insn pc)
      ((vm.withPolicy policyText policy).executeHeapFree insn pc) := by
  have heap : (vm.withPolicy policyText policy).state.heapFrames =
      vm.state.heapFrames := rfl
  rw [executeHeapFree, executeHeapFree, heap]
  cases vm.state.heapFrames with
  | nil => exact ⟨rfl, rfl⟩
  | cons top frames =>
      exact .bind fun _ _ => .ite (fun _ => ⟨rfl, rfl⟩) fun _ => ⟨rfl, rfl⟩

/-! ## Branches over the pools -/

/-- Interning a value and writing its handle. -/
theorem interned_policyless {α : Type} {pool : List α} {value : α}
    {left right : List α → Interpreter} {tag : ValueTag}
    (same : ∀ grown, right grown =
      (left grown).withPolicy policyText policy) :
    SamePolicyless policyText policy
      (do
        let (handle, vm) ← (do
          let grown ← appendPool pool value
          return (ofSize grown.length, left grown))
        vm.finishWrite insn pc handle tag)
      (do
        let (handle, vm) ← (do
          let grown ← appendPool pool value
          return (ofSize grown.length, right grown))
        vm.finishWrite insn pc handle tag) := by
  cases appendPool pool value with
  | error reason => rfl
  | ok grown =>
      show SamePolicyless policyText policy
        ((left grown).finishWrite insn pc _ tag)
        ((right grown).finishWrite insn pc _ tag)
      rw [same grown]
      exact finishWrite_policyless policyText policy

theorem executeMakeOptionSome_policyless :
    SamePolicyless policyText policy (vm.executeMakeOptionSome insn pc)
      ((vm.withPolicy policyText policy).executeMakeOptionSome insn pc) :=
  .bind fun _ _ => interned_policyless policyText policy fun _ => rfl

theorem executeMakeOptionNone_policyless :
    SamePolicyless policyText policy (vm.executeMakeOptionNone insn pc)
      ((vm.withPolicy policyText policy).executeMakeOptionNone insn pc) :=
  interned_policyless policyText policy fun _ => rfl

theorem executeMakeResult_policyless {isOk : Bool} :
    SamePolicyless policyText policy (vm.executeMakeResult insn pc isOk)
      ((vm.withPolicy policyText policy).executeMakeResult insn pc isOk) :=
  .bind fun _ _ => interned_policyless policyText policy fun _ => rfl

theorem executeMakeEnumVariant_policyless :
    SamePolicyless policyText policy (vm.executeMakeEnumVariant insn pc)
      ((vm.withPolicy policyText policy).executeMakeEnumVariant insn pc) :=
  interned_policyless policyText policy fun _ => rfl

theorem executeMakeEnumVariantPayload_policyless :
    SamePolicyless policyText policy
      (vm.executeMakeEnumVariantPayload insn pc)
      ((vm.withPolicy policyText policy).executeMakeEnumVariantPayload insn
        pc) :=
  .ite (fun _ => ⟨rfl, rfl⟩) fun _ =>
    .bind fun _ _ => interned_policyless policyText policy fun _ => rfl

theorem withHandle_policyless {α : Type} {tag : ValueTag}
    {lookup : Int64 → Option α} {inspect : α → Option (Int64 × ValueTag)} :
    SamePolicyless policyText policy
      (vm.withHandle insn pc tag lookup inspect)
      ((vm.withPolicy policyText policy).withHandle insn pc tag lookup
        inspect) := by
  refine .bind fun tagged _ => .ite (fun _ => ⟨rfl, rfl⟩) fun _ => ?_
  refine .bind fun handle _ => ?_
  cases (lookup handle).bind inspect with
  | none => exact ⟨rfl, rfl⟩
  | some written => exact finishWrite_policyless policyText policy

/-! ## Branches over tensors -/

theorem finishTensor_policyless {shape data : List Int64} :
    SamePolicyless policyText policy (vm.finishTensor insn pc shape data)
      ((vm.withPolicy policyText policy).finishTensor insn pc shape data) :=
  interned_policyless policyText policy fun _ => rfl

theorem withTensorPair_policyless
    {left right : TensorValue → TensorValue → Outcome}
    (computes : ∀ lhs rhs,
      SamePolicyless policyText policy (left lhs rhs) (right lhs rhs)) :
    SamePolicyless policyText policy (vm.withTensorPair insn pc left)
      ((vm.withPolicy policyText policy).withTensorPair insn pc right) := by
  have pointer : (vm.withPolicy policyText policy).tensorPtr =
      vm.tensorPtr := rfl
  rw [withTensorPair, withTensorPair]
  refine .bind fun tagged _ => .ite (fun _ => ⟨rfl, rfl⟩) fun _ => ?_
  refine .bind fun lhs _ => .bind fun rhs _ => ?_
  rw [pointer]
  cases vm.tensorPtr lhs with
  | none => exact ⟨rfl, rfl⟩
  | some first =>
      cases vm.tensorPtr rhs with
      | none => exact ⟨rfl, rfl⟩
      | some second => exact computes first second

theorem withTensor_policyless {left right : TensorValue → Outcome}
    (computes : ∀ input,
      SamePolicyless policyText policy (left input) (right input)) :
    SamePolicyless policyText policy (vm.withTensor insn pc left)
      ((vm.withPolicy policyText policy).withTensor insn pc right) := by
  have pointer : (vm.withPolicy policyText policy).tensorPtr =
      vm.tensorPtr := rfl
  rw [withTensor, withTensor]
  refine .bind fun tagged _ => .ite (fun _ => ⟨rfl, rfl⟩) fun _ => ?_
  refine .bind fun handle _ => ?_
  rw [pointer]
  cases vm.tensorPtr handle with
  | none => exact ⟨rfl, rfl⟩
  | some input => exact computes input

theorem executeVector_policyless :
    SamePolicyless policyText policy (vm.executeVector host insn pc)
      ((vm.withPolicy policyText policy).executeVector host insn pc) :=
  withTensorPair_policyless policyText policy fun _ _ =>
    .ite (fun _ => ⟨rfl, rfl⟩) fun _ =>
      .bind fun _ _ => finishTensor_policyless policyText policy

theorem executeTMatMul_policyless :
    SamePolicyless policyText policy (vm.executeTMatMul host insn pc)
      ((vm.withPolicy policyText policy).executeTMatMul host insn pc) := by
  refine withTensorPair_policyless policyText policy fun lhs rhs => ?_
  split
  · exact .ite (fun _ => ⟨rfl, rfl⟩) fun _ =>
      .bind fun _ _ => finishTensor_policyless policyText policy
  · exact ⟨rfl, rfl⟩

theorem executeTTenDot_policyless :
    SamePolicyless policyText policy (vm.executeTTenDot host insn pc)
      ((vm.withPolicy policyText policy).executeTTenDot host insn pc) :=
  withTensorPair_policyless policyText policy fun _ _ =>
    .ite (fun _ => ⟨rfl, rfl⟩) fun _ =>
      .bind fun _ _ => finishTensor_policyless policyText policy

theorem executeTTranspose_policyless :
    SamePolicyless policyText policy (vm.executeTTranspose insn pc)
      ((vm.withPolicy policyText policy).executeTTranspose insn pc) := by
  refine withTensor_policyless policyText policy fun input => ?_
  split
  · exact .ite (fun _ => ⟨rfl, rfl⟩) fun _ =>
      .bind fun _ _ => finishTensor_policyless policyText policy
  · exact ⟨rfl, rfl⟩

theorem executeActivation_policyless :
    SamePolicyless policyText policy (vm.executeActivation host insn pc)
      ((vm.withPolicy policyText policy).executeActivation host insn
        pc) := by
  refine withTensor_policyless policyText policy fun input =>
    .bind fun out _ => ?_
  cases out with
  | none => exact ⟨rfl, rfl⟩
  | some out => exact finishTensor_policyless policyText policy

theorem executeChkShape_policyless :
    SamePolicyless policyText policy (vm.executeChkShape insn pc)
      ((vm.withPolicy policyText policy).executeChkShape insn pc) := by
  have tensors : (vm.withPolicy policyText policy).tensorPtr =
      vm.tensorPtr := rfl
  have shapes : (vm.withPolicy policyText policy).shapePtr =
      vm.shapePtr := rfl
  rw [executeChkShape, executeChkShape]
  refine .bind fun tagged _ => .ite (fun _ => ⟨rfl, rfl⟩) fun _ => ?_
  refine .bind fun tensor _ => .bind fun shape _ => ?_
  rw [tensors, shapes]
  cases vm.tensorPtr tensor with
  | none => exact ⟨rfl, rfl⟩
  | some first =>
      cases vm.shapePtr shape with
      | none => exact ⟨rfl, rfl⟩
      | some second => exact finishWrite_policyless policyText policy

/-! ## The gate -/

/-- The guards log the decision they took. -/
theorem execute_guarded_policyless (isGuarded : guarded insn.opcode = true)
    (same : (vm.withPolicy policyText policy).axionDenied =
      vm.axionDenied) :
    SamePolicyless policyText policy (vm.execute host insn pc)
      ((vm.withPolicy policyText policy).execute host insn pc) := by
  cases opcode : insn.opcode <;> rw [opcode] at isGuarded <;>
    cases isGuarded <;> rw [execute, execute, opcode]
  case axRead =>
    show SamePolicyless policyText policy (vm.executeAxRead insn pc)
      ((vm.withPolicy policyText policy).executeAxRead insn pc)
    simp only [executeAxRead, same]
    refine .ite (fun _ => ⟨rfl, rfl⟩) fun _ => ?_
    exact finishWrite_policyless policyText policy
  case axSet =>
    show SamePolicyless policyText policy (vm.executeAxSet insn pc)
      ((vm.withPolicy policyText policy).executeAxSet insn pc)
    simp only [executeAxSet, same]
    refine .bind fun value _ => .bind fun addr _ => ?_
    exact .ite (fun _ => ⟨rfl, rfl⟩) fun _ => ⟨rfl, rfl⟩
  case axVerify =>
    show SamePolicyless policyText policy (vm.executeAxVerify insn pc)
      ((vm.withPolicy policyText policy).executeAxVerify insn pc)
    simp only [executeAxVerify, same]
    refine .ite (fun _ => ⟨rfl, rfl⟩) fun _ => ?_
    exact finishWrite_policyless policyText policy

/-- Outside the gate no instruction looks at the policy. -/
theorem execute_policyless
    (same : guarded insn.opcode = true →
      (vm.withPolicy policyText policy).axionDenied = vm.axionDenied) :
    SamePolicyless policyText policy (vm.execute host insn pc)
      ((vm.withPolicy policyText policy).execute host insn pc) := by
  by_cases isGuarded : guarded insn.opcode = true
  · exact execute_guarded_policyless policyText policy isGuarded
      (same isGuarded)
  · clear same
    rw [execute, execute]
    cases opcode : insn.opcode <;> rw [opcode] at isGuarded
    case axRead | axSet | axVerify => exact absurd rfl isGuarded
    case nop | halt | trap | undefined => exact ⟨rfl, rfl⟩
    case loadImm => exact executeLoadImm_policyless policyText policy
    case load => exact executeLoad_policyless policyText policy
    case store => exact executeStore_policyless policyText policy
    case add | sub | mul | div | mod | fAdd | fSub | fMul | fDiv | fracAdd |
      fracSub | fracMul | fracDiv =>
      exact executeArithmetic_policyless policyText policy
    case mov | i2F | f2I | i2Frac | frac2I =>
      exact executeMove_policyless policyText policy
    case inc | dec => exact executeBump_policyless policyText policy
    case cmp => exact executeCmp_policyless policyText policy
    case neg => exact executeNeg_policyless policyText policy
    case tNot => exact executeTNot_policyless policyText policy
    case tAnd | tOr | tXor => exact executeTrit_policyless policyText policy
    case less | lessEqual | greater | greaterEqual | equal | notEqual =>
      exact executeCompare_policyless policyText policy
    case push => exact executePush_policyless policyText policy
    case pop => exact executePop_policyless policyText policy
    case jump => exact checkJumpTarget_policyless policyText policy
    case jumpIfZero | jumpIfNotZero | jumpIfNegative | jumpIfPositive =>
      exact executeJumpIf_policyless policyText policy
    case call => exact executeCall_policyless policyText policy
    case ret => exact executeRet_policyless policyText policy
    case tVecAdd | tVecMul => exact executeVector_policyless policyText policy
    case tMatMul => exact executeTMatMul_policyless policyText policy
    case tTenDot => exact executeTTenDot_policyless policyText policy
    case tTranspose => exact executeTTranspose_policyless policyText policy
    case tExp | tSqrt | tSiLU | tSoftmax | tRMSNorm | tRoPE =>
      exact executeActivation_policyless policyText policy
    case chkShape => exact executeChkShape_policyless policyText policy
    case weightsLoad => exact executeWeightsLoad_policyless policyText policy
    case setF => exact executeSetF_policyless policyText policy
    case makeOptionSome =>
      exact executeMakeOptionSome_policyless policyText policy
    case makeOptionNone =>
      exact executeMakeOptionNone_policyless policyText policy
    case makeResultOk | makeResultErr =>
      exact executeMakeResult_policyless policyText policy
    case makeEnumVariant =>
      exact executeMakeEnumVariant_policyless policyText policy
    case makeEnumVariantPayload =>
      exact executeMakeEnumVariantPayload_policyless policyText policy
    case optionIsSome | optionUnwrap | resultIsOk | resultUnwrapOk |
      resultUnwrapErr | enumIsVariant | enumUnwrapPayload =>
      exact withHandle_policyless policyText policy
    case stackAlloc => exact executeStackAlloc_policyless policyText policy
    case stackFree => exact executeStackFree_policyless policyText policy
    case heapAlloc => exact executeHeapAlloc_policyless policyText policy
    case heapFree => exact executeHeapFree_policyless policyText policy

/-- The next step executes no guarded instruction. -/
def AvoidsGate (vm : Interpreter) : Prop :=
  ∀ insn, vm.Fetches insn → guarded insn.opcode = false

theorem step_policyless
    (blind : vm.AvoidsGate ∨
      (vm.withPolicy policyText policy).axionDenied = vm.axionDenied) :
    SamePolicyless policyText policy (vm.step host)
      ((vm.withPolicy policyText policy).step host) := by
  rw [step, step]
  refine .ite (fun _ => ⟨rfl, rfl⟩) fun halted => ?_
  have running : vm.state.halted = false := Bool.eq_false_iff.mpr halted
  have preload : (vm.withPolicy policyText policy).preloadTrap =
      vm.preloadTrap := rfl
  have fetch : (vm.withPolicy policyText policy).program.insns[
        (vm.withPolicy policyText policy).state.pc]? =
      vm.program.insns[vm.state.pc]? := rfl
  rw [preload, fetch]
  cases accepted : vm.preloadTrap with
  | some code => exact ⟨rfl, rfl⟩
  | none =>
      cases fetched : vm.program.insns[vm.state.pc]? with
      | none => exact ⟨rfl, rfl⟩
      | some insn =>
          apply @execute_policyless host vm.beginInsn insn vm.state.pc
          intro isGuarded
          rcases blind with avoids | same
          · have unguarded := avoids insn ⟨running, accepted, fetched⟩
            rw [isGuarded] at unguarded
            cases unguarded
          · exact same

theorem setRegister_withPolicy {idx : Int32} {value : Int64}
    {tag : ValueTag} :
    (vm.withPolicy policyText policy).setRegister idx value tag =
      (vm.setRegister idx value tag).withPolicy policyText policy := by
  rw [setRegister, setRegister]
  split <;> rfl

/-- No call of a guest or of `set_register` changes the policy. -/
theorem run_policy_eq {calls : List Call} {replies : List Reply}
    {final : Interpreter} (driving : ∀ call ∈ calls, call.driving)
    (finished : run (call host) calls vm = .ok (replies, final)) :
    final.state.policy = vm.state.policy := by
  refine run_invariant (fun later => later.state.policy = vm.state.policy)
    Call.driving ?_ driving rfl finished
  intro request state reply last allowed kept answered
  cases request with
  | loadProgram => exact allowed.elim
  | step =>
      obtain ⟨expected, stepped, _⟩ := call_step_eq_ok.mp answered
      exact (step_stepped stepped).policy_eq.trans kept
  | runToHalt maxSteps =>
      obtain ⟨expected, stopped, _⟩ := call_runToHalt_eq_ok.mp answered
      exact runToHalt_invariant
        (fun _ _ _ kept stepped =>
          (step_stepped stepped).policy_eq.trans kept) kept stopped
  | setRegister idx value tag =>
      cases answered
      rw [← kept, setRegister]
      split <;> rfl

/-- Two objects that differ in their policy at most. -/
structure SameButPolicy (left right : Interpreter) : Prop where
  insns_eq : left.program.insns = right.program.insns
  state_eq : { left.state with policy := none } =
    { right.state with policy := none }
  preloadTrap_eq : left.preloadTrap = right.preloadTrap
  steps_eq : left.steps = right.steps
  callStack_eq : left.callStack = right.callStack
  currentWriteReg_eq : left.currentWriteReg = right.currentWriteReg
  currentWriteValue_eq : left.currentWriteValue = right.currentWriteValue
  currentWriteTag_eq : left.currentWriteTag = right.currentWriteTag

/-- The calls of a run are answered alike under another policy when no step
reaches the gate, or when the gate decides alike. -/
theorem run_policyless {calls : List Call}
    (driving : ∀ call ∈ calls, call.driving)
    (blind : Along (call host) (StepsAlong host AvoidsGate) calls vm ∨
      (vm.withPolicy policyText policy).axionDenied = vm.axionDenied) :
    Agree (fun left right => right = left.withPolicy policyText policy)
      (run (call host) calls vm)
      (run (call host) calls (vm.withPolicy policyText policy)) := by
  have simulates : ∀ {condition : Interpreter → Prop},
      (∀ state, condition state → state.state.policy = vm.state.policy →
        state.AvoidsGate ∨ (state.withPolicy policyText policy).axionDenied =
          state.axionDenied) →
      ∀ request left right,
        request.driving ∧ StepsAlong host condition request left →
        (right = left.withPolicy policyText policy ∧
          left.state.policy = vm.state.policy) →
        Agree (fun left right => right = left.withPolicy policyText policy ∧
          left.state.policy = vm.state.policy)
          (call host request left) (call host request right) := by
    intro condition blind request left right allowed related
    apply call_agree ?_ ?_ ?_ allowed.1 allowed.2 related
    · rintro left _ met ⟨rfl, kept⟩
      apply (step_policyless policyText policy (blind left met kept)).and_left
      intro reply final stepped
      exact (step_stepped stepped).policy_eq.trans kept
    · rintro left _ ⟨rfl, _⟩
      rfl
    · rintro left _ idx value tag ⟨rfl, kept⟩
      refine ⟨setRegister_withPolicy policyText policy, ?_⟩
      rw [← kept, setRegister]
      split <;> rfl
  have both : Agree (fun left right =>
        right = left.withPolicy policyText policy ∧
          left.state.policy = vm.state.policy)
      (run (call host) calls vm)
      (run (call host) calls (vm.withPolicy policyText policy)) := by
    rcases blind with avoids | same
    · exact run_agree_along (simulates fun _ avoids _ => .inl avoids)
        ((along_of_forall driving).and avoids) ⟨rfl, rfl⟩
    · have decides : ∀ state : Interpreter, True →
          state.state.policy = vm.state.policy →
          state.AvoidsGate ∨ (state.withPolicy policyText policy).axionDenied =
            state.axionDenied := by
        intro state _ kept
        apply Or.inr
        have left : state.axionDenied = vm.axionDenied := by
          rw [axionDenied, axionDenied, kept]
        rw [left, ← same]
        rfl
      have along := (@along_of_forall _ _ _ _ (call host) _ _ vm
        driving).mono fun request state allowed =>
          And.intro allowed (@stepsAlong_of_forall host _
            (fun _ => trivial) request state)
      exact run_agree_along (simulates decides) along ⟨rfl, rfl⟩
  exact both.mono fun _ _ related => related.1

/-! ## The decision -/

variable {final : Interpreter} {result : Expected}

theorem execute_denied (isGuarded : guarded insn.opcode = true)
    (denied : vm.axionDenied = true)
    (executed : vm.execute host insn pc = .ok (result, final)) :
    result = .error .securityFault := by
  cases opcode : insn.opcode <;> rw [opcode] at isGuarded <;>
    cases isGuarded <;> rw [execute, opcode] at executed
  case axRead =>
    have body : vm.executeAxRead insn pc = .ok (result, final) := executed
    simp only [executeAxRead, denied, if_true] at body
    cases body
    rfl
  case axSet =>
    obtain ⟨value, _, rest⟩ := bind_eq_ok.mp executed
    obtain ⟨addr, _, rest⟩ := bind_eq_ok.mp rest
    simp only [denied, if_true] at rest
    cases rest
    rfl
  case axVerify =>
    have body : vm.executeAxVerify insn pc = .ok (result, final) := executed
    simp only [executeAxVerify, denied, if_true] at body
    cases body
    rfl

theorem execute_allowed (isGuarded : guarded insn.opcode = true)
    (allowed : vm.axionDenied = false)
    (executed : vm.execute host insn pc = .ok (result, final)) :
    result = .ok () := by
  have written : ∀ {other : Interpreter} {value : Int64} {tag : ValueTag},
      other.finishWrite insn pc value tag = .ok (result, final) →
        result = .ok () := by
    intro other value tag finished
    obtain ⟨reg, _, same⟩ := finishWrite_eq_ok.mp finished
    exact congrArg Prod.fst same
  cases opcode : insn.opcode <;> rw [opcode] at isGuarded <;>
    cases isGuarded <;> rw [execute, opcode] at executed
  case axRead =>
    have body : vm.executeAxRead insn pc = .ok (result, final) := executed
    simp only [executeAxRead, allowed, Bool.false_eq_true, if_false] at body
    exact written body
  case axSet =>
    obtain ⟨value, _, rest⟩ := bind_eq_ok.mp executed
    obtain ⟨addr, _, rest⟩ := bind_eq_ok.mp rest
    simp only [allowed, Bool.false_eq_true, if_false] at rest
    cases rest
    rfl
  case axVerify =>
    have body : vm.executeAxVerify insn pc = .ok (result, final) := executed
    simp only [executeAxVerify, allowed, Bool.false_eq_true, if_false] at body
    exact written body

/-- The validator checks the registers of guarded instructions. -/
theorem execute_guarded_defined {size : Nat}
    (isGuarded : guarded insn.opcode = true)
    (valid : validOperands size insn = true) :
    ∃ answer, vm.execute host insn pc = .ok answer := by
  have index : ∀ {idx : Int64}, validReg idx = true →
      ∃ reg, registerIndex idx = .ok reg := by
    intro idx checked
    rw [registerIndex, dif_pos (validReg_iff.mp checked)]
    exact ⟨_, rfl⟩
  cases opcode : insn.opcode <;> rw [opcode] at isGuarded <;>
    cases isGuarded <;> rw [validOperands, opcode] at valid <;>
    rw [execute, opcode]
  case axRead =>
    obtain ⟨reg, target⟩ := index valid
    show ∃ answer, vm.executeAxRead insn pc = .ok answer
    simp only [executeAxRead]
    split
    · exact ⟨_, rfl⟩
    · exact ⟨_, finishWrite_eq_ok.mpr ⟨reg, target, rfl⟩⟩
  case axSet =>
    obtain ⟨first, second⟩ := Bool.and_eq_true_iff.mp valid
    obtain ⟨target, targetIndex⟩ := index first
    obtain ⟨source, sourceIndex⟩ := index second
    have value : vm.register insn.b = .ok (vm.state.registers source) :=
      register_eq_ok.mpr ⟨source, sourceIndex, rfl⟩
    have addr : vm.register insn.a = .ok (vm.state.registers target) :=
      register_eq_ok.mpr ⟨target, targetIndex, rfl⟩
    show ∃ answer, vm.executeAxSet insn pc = .ok answer
    simp only [executeAxSet, value, addr, bind, Except.bind]
    split
    · exact ⟨_, rfl⟩
    · exact ⟨_, rfl⟩
  case axVerify =>
    obtain ⟨reg, target⟩ := index valid
    show ∃ answer, vm.executeAxVerify insn pc = .ok answer
    simp only [executeAxVerify]
    split
    · exact ⟨_, rfl⟩
    · exact ⟨_, finishWrite_eq_ok.mpr ⟨reg, target, rfl⟩⟩

/-- A guarded instruction traps with a security fault under a policy of tier
zero, before it changes the machine, and completes under any other. -/
theorem step_gate (fetches : vm.Fetches insn)
    (isGuarded : guarded insn.opcode = true)
    (stepped : vm.step host = .ok (result, final)) :
    (vm.axionDenied = true →
      result = .error .securityFault ∧ final.machine = vm.machine) ∧
    (vm.axionDenied = false → result = .ok ()) := by
  have executed := stepped
  rw [step_of_fetches fetches] at executed
  constructor
  · intro denied
    have begun : vm.beginInsn.axionDenied = true := denied
    have fault := execute_denied isGuarded begun executed
    subst fault
    have same := step_sameMachine_of_error fetches.accepted stepped
    exact ⟨rfl, same.machine_eq.symm⟩
  · intro allowed
    have begun : vm.beginInsn.axionDenied = false := allowed
    exact execute_allowed isGuarded begun executed

/-! ## Two policies -/

/-- Loading programs with the same instructions differs in the policy. -/
theorem loadProgram_withPolicy {old left right : Interpreter}
    {first second : Program} (sameInsns : first.insns = second.insns)
    (loadsLeft : old.loadProgram first = .ok left)
    (loadsRight : old.loadProgram second = .ok right) :
    right = left.withPolicy second.axionPolicyText right.state.policy := by
  obtain ⟨firstPolicy, _, rfl⟩ := loadProgram_eq_ok.mp loadsLeft
  obtain ⟨secondPolicy, _, rfl⟩ := loadProgram_eq_ok.mp loadsRight
  obtain ⟨insns, firstText, firstFits⟩ := first
  obtain ⟨others, secondText, secondFits⟩ := second
  cases sameInsns
  rfl

theorem sameButPolicy_withPolicy :
    SameButPolicy vm (vm.withPolicy policyText policy) :=
  ⟨rfl, rfl, rfl, rfl, rfl, rfl, rfl, rfl⟩

/-- What the policy decides for two objects that start a sequence of calls,
`left` with the program `first`. -/
structure PolicyGate (host : Host) (first : Program)
    (left right : Interpreter) (calls : List Call) : Prop where
  /-- Without a guarded step, or with one decision, the runs agree. -/
  agree : (Along (call host) (StepsAlong host AvoidsGate) calls left ∨
      left.axionDenied = right.axionDenied) →
    Agree SameButPolicy (run (call host) calls left)
      (run (call host) calls right)
  /-- The first guarded step tells the policies apart. -/
  separate : Along (call host) (StepsAlong host AvoidsGate) calls left →
    left.axionDenied = true → right.axionDenied = false →
    ∀ leftReplies rightReplies leftVm rightVm insn,
      run (call host) calls left = .ok (leftReplies, leftVm) →
      run (call host) calls right = .ok (rightReplies, rightVm) →
      leftVm.Fetches insn → guarded insn.opcode = true →
        (∀ result final, leftVm.step host = .ok (result, final) →
          result = .error .securityFault ∧
            final.machine = leftVm.machine) ∧
        (∀ result final, rightVm.step host = .ok (result, final) →
          result = .ok ()) ∧
        (validateProgram first = none →
          (∃ answer, leftVm.step host = .ok answer) ∧
            ∃ answer, rightVm.step host = .ok answer)
  /-- Under a policy of tier zero no guarded step ever completes. -/
  deny : left.axionDenied = true →
    ∀ replies vm insn, run (call host) calls left = .ok (replies, vm) →
      vm.Fetches insn → guarded insn.opcode = true →
        ∀ final, vm.step host ≠ .ok (.ok (), final)
  /-- No call changes the policy. -/
  keep : ∀ replies vm, run (call host) calls left = .ok (replies, vm) →
    vm.state.policy = left.state.policy

/-- The policy gate is exact, and the only influence of the policy. -/
theorem policy_gate_exact {old left right : Interpreter}
    {first second : Program} {calls : List Call}
    (sameInsns : first.insns = second.insns)
    (loadsLeft : old.loadProgram first = .ok left)
    (loadsRight : old.loadProgram second = .ok right)
    (driving : ∀ call ∈ calls, call.driving) :
    PolicyGate host first left right calls := by
  have related := loadProgram_withPolicy sameInsns loadsLeft loadsRight
  have keepsDecision : ∀ {start last : Interpreter} {replies : List Reply},
      run (call host) calls start = .ok (replies, last) →
        last.axionDenied = start.axionDenied := by
    intro start last replies finished
    rw [axionDenied, axionDenied, run_policy_eq driving finished]
  have policyless := @run_policyless host left second.axionPolicyText
    right.state.policy calls driving
  rw [← related] at policyless
  refine ⟨fun blind => ?_, ?_, ?_, ?_⟩
  · refine (policyless (blind.imp_right Eq.symm)).mono ?_
    rintro state _ rfl
    exact sameButPolicy_withPolicy _ _
  · intro avoids denied allowed leftReplies rightReplies leftVm rightVm insn
      leftRun rightRun fetches isGuarded
    have agree := policyless (.inl avoids)
    rw [leftRun, rightRun] at agree
    obtain ⟨_, rfl⟩ := agree
    have rightFetches : Fetches (leftVm.withPolicy second.axionPolicyText
        right.state.policy) insn :=
      ⟨fetches.running, fetches.accepted, fetches.fetched⟩
    have leftDenied := (keepsDecision leftRun).trans denied
    have rightAllowed := (keepsDecision rightRun).trans allowed
    refine ⟨fun result final stepped => ?_, fun result final stepped => ?_,
      fun accepted => ?_⟩
    · exact (step_gate fetches isGuarded stepped).1 leftDenied
    · exact (step_gate rightFetches isGuarded stepped).2 rightAllowed
    · have reached : Reachable host first leftVm :=
        ⟨left, calls, leftReplies, ⟨old, loadsLeft⟩, driving, leftRun⟩
      have valid := reached.installed.validOperands accepted fetches
      rw [step_of_fetches fetches, step_of_fetches rightFetches]
      exact ⟨execute_guarded_defined isGuarded valid,
        execute_guarded_defined isGuarded valid⟩
  · intro denied replies vm insn finished fetches isGuarded final completed
    have leftDenied := (keepsDecision finished).trans denied
    have fault := ((step_gate fetches isGuarded completed).1 leftDenied).1
    cases fault
  · intro replies vm finished
    exact run_policy_eq driving finished

/-- A constant, and then a guarded read of it. -/
def readAfterLoad (policyText : Text) : Program where
  insns := [
    { opcode := .loadImm, a := 0, b := 5, c := 0 },
    { opcode := .axRead, a := 1, b := 3, c := 0 }]
  axionPolicyText := policyText
  fits := by decide

/-- Under the tier zero the read is denied, without a policy it completes. -/
theorem policy_gate_exact_readAfterLoad :
    ∃ left right,
      ({} : Interpreter).loadProgram (readAfterLoad (text "(tier 0)")) =
        .ok left ∧
      ({} : Interpreter).loadProgram (readAfterLoad []) = .ok right ∧
      left.axionDenied = true ∧ right.axionDenied = false ∧
      PolicyGate strictHost (readAfterLoad (text "(tier 0)")) left right
        [.step] := by
  have tier : parsePolicy (text "(tier 0)") = .ok (some { tier := 0 }) := by
    decide +kernel
  have loadsLeft := (@loadProgram_eq_ok (readAfterLoad (text "(tier 0)")) _
    {}).mpr ⟨_, tier, rfl⟩
  have loadsRight := (@loadProgram_eq_ok (readAfterLoad []) _ {}).mpr
    ⟨_, parsePolicy_nil, rfl⟩
  have sameInsns : ∀ some other,
      (readAfterLoad some).insns = (readAfterLoad other).insns :=
    fun _ _ => rfl
  have gate := @policy_gate_exact strictHost _ _ _ _ _ [.step]
    (sameInsns _ _) loadsLeft loadsRight (by simp [Call.driving])
  exact ⟨_, _, loadsLeft, loadsRight, by decide, by decide, gate⟩

end Interpreter

end T81VM.VM
