import T81VM.VM.Faults

/-!
# The details of trap payloads

`trapDetails` lists the texts that the payload of a trapping opcode can
quote.  They are the texts of the source, and none of them is long.
-/

namespace T81VM.VM

open Tisc

/-- The details an opcode can trap with. -/
def trapDetails : Opcode → List Text
  | .load => [text "memory load"]
  | .store => [text "memory store"]
  | .div | .mod | .fDiv | .fracDiv => [text "division by zero"]
  | .push => [text "stack push"]
  | .pop => [text "stack pop"]
  | .axRead => [text "axion deny read"]
  | .axSet => [text "axion deny set"]
  | .axVerify => [text "axion deny verify"]
  | .stackAlloc =>
      [text "invalid stack alloc size", text "stack frame allocate"]
  | .stackFree =>
      [text "stack frame free empty", text "stack frame free mismatch"]
  | .heapAlloc =>
      [text "invalid heap alloc size", text "heap block allocate"]
  | .heapFree =>
      [text "heap block free empty", text "heap block free mismatch"]
  | _ => [[]]

/-- The computation leaves one of the given texts on record if it traps. -/
def QuotesOnly (texts : List Text) (outcome : Outcome) : Prop :=
  ∀ code final, outcome = .ok (.error code, final) →
    ∃ payload, final.state.lastTrapPayload = some payload ∧
      payload.detail ∈ texts

namespace QuotesOnly

variable {texts : List Text} {vm : Interpreter}

theorem done : QuotesOnly texts (.ok (.ok (), vm)) := by
  intro code final same
  cases same

theorem trap {code : Trap} {opcode : Opcode} {pc : Nat}
    {segment : MemorySegmentKind} {detail : Text} (listed : detail ∈ texts) :
    QuotesOnly texts (.ok (vm.trap code opcode pc segment detail)) := by
  intro other final same
  cases same
  exact ⟨_, rfl, listed⟩

theorem bind {α : Type} {read : Except Stuck α} {next : α → Outcome}
    (rest : ∀ value, QuotesOnly texts (next value)) :
    QuotesOnly texts (read >>= next) := by
  intro code final trapped
  obtain ⟨value, _, later⟩ := bind_eq_ok.mp trapped
  exact rest value code final later

theorem ite {condition : Prop} [Decidable condition] {yes no : Outcome}
    (positive : QuotesOnly texts yes) (negative : QuotesOnly texts no) :
    QuotesOnly texts (if condition then yes else no) := by
  by_cases holds : condition
  · rw [if_pos holds]
    exact positive
  · rw [if_neg holds]
    exact negative

end QuotesOnly

namespace Interpreter

variable {host : Host} {vm : Interpreter} {insn : Insn} {pc : Nat}
  {texts : List Text}

theorem finishWrite_quotes {value : Int64} {tag : ValueTag} :
    QuotesOnly texts (vm.finishWrite insn pc value tag) :=
  .bind fun _ => .bind fun _ => .done

/-! ## Branches that quote a text -/

theorem executeLoad_quotes :
    QuotesOnly [text "memory load"] (vm.executeLoad insn pc) :=
  .ite (.trap (by decide)) (.bind fun _ => finishWrite_quotes)

theorem executeStore_quotes :
    QuotesOnly [text "memory store"] (vm.executeStore insn pc) :=
  .ite (.trap (by decide)) (.bind fun _ => .bind fun _ => .done)

theorem executeArithmetic_quotes :
    QuotesOnly [text "division by zero"]
      (vm.executeArithmetic host insn pc) :=
  .bind fun _ => .bind fun _ => .ite (.trap (by decide))
    (.bind fun _ => .bind fun _ => .done)

theorem executePush_quotes :
    QuotesOnly [text "stack push"] (vm.executePush insn pc) :=
  .bind fun outcome =>
    match outcome with
    | none => .trap (by decide)
    | some _ => .done

theorem executePop_quotes :
    QuotesOnly [text "stack pop"] (vm.executePop insn pc) :=
  .bind fun outcome =>
    match outcome with
    | none => .trap (by decide)
    | some _ => .bind fun _ => .done

theorem executeAxRead_quotes :
    QuotesOnly [text "axion deny read"] (vm.executeAxRead insn pc) :=
  .ite (.trap (by decide)) finishWrite_quotes

theorem executeAxSet_quotes :
    QuotesOnly [text "axion deny set"] (vm.executeAxSet insn pc) :=
  .bind fun _ => .bind fun _ => .ite (.trap (by decide)) .done

theorem executeAxVerify_quotes :
    QuotesOnly [text "axion deny verify"] (vm.executeAxVerify insn pc) :=
  .ite (.trap (by decide)) finishWrite_quotes

theorem executeStackAlloc_quotes :
    QuotesOnly
      [text "invalid stack alloc size", text "stack frame allocate"]
      (vm.executeStackAlloc insn pc) :=
  .ite (.trap (by decide))
    (.ite (.trap (by decide)) (.bind fun _ => .done))

theorem executeStackFree_quotes :
    QuotesOnly
      [text "stack frame free empty", text "stack frame free mismatch"]
      (vm.executeStackFree insn pc) := by
  unfold executeStackFree
  cases vm.state.stackFrames with
  | nil => exact .trap (by decide)
  | cons top frames => exact .bind fun _ => .ite (.trap (by decide)) .done

theorem executeHeapAlloc_quotes :
    QuotesOnly
      [text "invalid heap alloc size", text "heap block allocate"]
      (vm.executeHeapAlloc insn pc) :=
  .ite (.trap (by decide))
    (.ite (.trap (by decide)) (.bind fun _ => .done))

theorem executeHeapFree_quotes :
    QuotesOnly
      [text "heap block free empty", text "heap block free mismatch"]
      (vm.executeHeapFree insn pc) := by
  unfold executeHeapFree
  cases vm.state.heapFrames with
  | nil => exact .trap (by decide)
  | cons top frames => exact .bind fun _ => .ite (.trap (by decide)) .done

/-! ## Branches that quote nothing -/

theorem checkJumpTarget_quotes {target : Int64} :
    QuotesOnly [[]] (vm.checkJumpTarget insn pc target) :=
  .ite (.trap (by decide)) .done

theorem executeJumpIf_quotes {condition : Bool} :
    QuotesOnly [[]] (vm.executeJumpIf insn pc condition) :=
  .ite checkJumpTarget_quotes .done

theorem executeCall_quotes :
    QuotesOnly [[]] (vm.executeCall insn pc) :=
  .bind fun _ => .ite (.trap (by decide)) .done

theorem executeRet_quotes : QuotesOnly [[]] (vm.executeRet insn pc) := by
  unfold executeRet
  cases vm.callStack with
  | nil => exact .trap (by decide)
  | cons back callers => exact .done

theorem executeMakeEnumVariantPayload_quotes :
    QuotesOnly [[]] (vm.executeMakeEnumVariantPayload insn pc) :=
  .ite (.trap (by decide))
    (.bind fun _ => .bind fun _ => finishWrite_quotes)

theorem withHandle_quotes {α : Type} {tag : ValueTag}
    {lookup : Int64 → Option α} {inspect : α → Option (Int64 × ValueTag)} :
    QuotesOnly [[]] (vm.withHandle insn pc tag lookup inspect) := by
  refine .bind fun tagged => .ite (.trap (by decide)) (.bind fun handle => ?_)
  cases (lookup handle).bind inspect with
  | none => exact .trap (by decide)
  | some written => exact finishWrite_quotes

theorem finishTensor_quotes {shape data : List Int64} :
    QuotesOnly texts (vm.finishTensor insn pc shape data) :=
  .bind fun _ => finishWrite_quotes

theorem shapeFault_quotes : QuotesOnly [[]] (vm.shapeFault insn pc) :=
  .trap (by decide)

theorem withTensorPair_quotes {compute : TensorValue → TensorValue → Outcome}
    (computes : ∀ lhs rhs, QuotesOnly [[]] (compute lhs rhs)) :
    QuotesOnly [[]] (vm.withTensorPair insn pc compute) := by
  refine .bind fun tagged => .ite (.trap (by decide)) ?_
  refine .bind fun lhs => .bind fun rhs => ?_
  cases vm.tensorPtr lhs with
  | none => exact .trap (by decide)
  | some first =>
      cases vm.tensorPtr rhs with
      | none => exact .trap (by decide)
      | some second => exact computes first second

theorem withTensor_quotes {compute : TensorValue → Outcome}
    (computes : ∀ input, QuotesOnly [[]] (compute input)) :
    QuotesOnly [[]] (vm.withTensor insn pc compute) := by
  refine .bind fun tagged => .ite (.trap (by decide)) (.bind fun handle => ?_)
  cases vm.tensorPtr handle with
  | none => exact .trap (by decide)
  | some input => exact computes input

theorem executeVector_quotes :
    QuotesOnly [[]] (vm.executeVector host insn pc) :=
  withTensorPair_quotes fun _ _ =>
    .ite shapeFault_quotes (.bind fun _ => finishTensor_quotes)

theorem executeTMatMul_quotes :
    QuotesOnly [[]] (vm.executeTMatMul host insn pc) := by
  apply withTensorPair_quotes
  intro lhs rhs
  split
  · exact .ite shapeFault_quotes (.bind fun _ => finishTensor_quotes)
  · exact shapeFault_quotes

theorem executeTTenDot_quotes :
    QuotesOnly [[]] (vm.executeTTenDot host insn pc) :=
  withTensorPair_quotes fun _ _ =>
    .ite shapeFault_quotes (.bind fun _ => finishTensor_quotes)

theorem executeTTranspose_quotes :
    QuotesOnly [[]] (vm.executeTTranspose insn pc) := by
  apply withTensor_quotes
  intro input
  split
  · exact .ite shapeFault_quotes (.bind fun _ => finishTensor_quotes)
  · exact shapeFault_quotes

theorem executeActivation_quotes :
    QuotesOnly [[]] (vm.executeActivation host insn pc) := by
  apply withTensor_quotes
  intro input
  refine .bind fun out => ?_
  cases out with
  | none => exact shapeFault_quotes
  | some data => exact finishTensor_quotes

theorem executeChkShape_quotes :
    QuotesOnly [[]] (vm.executeChkShape insn pc) := by
  refine .bind fun tagged => .ite (.trap (by decide)) ?_
  refine .bind fun tensor => .bind fun shape => ?_
  cases vm.tensorPtr tensor with
  | none => exact .trap (by decide)
  | some first =>
      cases vm.shapePtr shape with
      | none => exact .trap (by decide)
      | some second => exact finishWrite_quotes

/-! ## The switch and the step -/

/-- An opcode without trap codes quotes what it likes. -/
theorem quotes_of_faultless (faultless : faultCodes insn.opcode = []) :
    QuotesOnly texts (vm.execute host insn pc) := by
  intro code final trapped
  have listed := execute_faultCodes code final trapped
  rw [faultless] at listed
  cases listed

/-- An instruction quotes the details of its opcode. -/
theorem execute_quotes :
    QuotesOnly (trapDetails insn.opcode) (vm.execute host insn pc) := by
  by_cases faultless : faultCodes insn.opcode = []
  · exact quotes_of_faultless faultless
  · unfold execute
    cases opcode : insn.opcode <;> rw [opcode] at faultless
    case load => exact executeLoad_quotes
    case store => exact executeStore_quotes
    case div | mod | fDiv | fracDiv => exact executeArithmetic_quotes
    case push => exact executePush_quotes
    case pop => exact executePop_quotes
    case jump => exact checkJumpTarget_quotes
    case jumpIfZero | jumpIfNotZero | jumpIfNegative | jumpIfPositive =>
      exact executeJumpIf_quotes
    case call => exact executeCall_quotes
    case ret => exact executeRet_quotes
    case trap | undefined => exact .trap (List.mem_singleton_self _)
    case axRead => exact executeAxRead_quotes
    case axSet => exact executeAxSet_quotes
    case axVerify => exact executeAxVerify_quotes
    case tVecAdd | tVecMul => exact executeVector_quotes
    case tMatMul => exact executeTMatMul_quotes
    case tTenDot => exact executeTTenDot_quotes
    case tTranspose => exact executeTTranspose_quotes
    case tExp | tSqrt | tSiLU | tSoftmax | tRMSNorm | tRoPE =>
      exact executeActivation_quotes
    case chkShape => exact executeChkShape_quotes
    case makeEnumVariantPayload =>
      exact executeMakeEnumVariantPayload_quotes
    case optionIsSome | optionUnwrap | resultIsOk | resultUnwrapOk |
      resultUnwrapErr | enumIsVariant | enumUnwrapPayload =>
      exact withHandle_quotes
    case stackAlloc => exact executeStackAlloc_quotes
    case stackFree => exact executeStackFree_quotes
    case heapAlloc => exact executeHeapAlloc_quotes
    case heapFree => exact executeHeapFree_quotes
    all_goals exact absurd rfl faultless

theorem trapDetails_length {opcode : Opcode} {detail : Text}
    (quoted : detail ∈ trapDetails opcode) : detail.length ≤ 25 := by
  cases opcode with
  | undefined =>
      have silent : detail ∈ [[]] := quoted
      rw [List.mem_singleton.mp silent]
      decide
  | _ => revert detail; decide

/-- The detail of a step that traps. -/
theorem step_quotes {code : Trap} {final : Interpreter}
    (stepped : vm.step host = .ok (.error code, final)) :
    ∃ payload, final.state.lastTrapPayload = some payload ∧
      payload.detail.length ≤ 25 := by
  cases step_stepped stepped with
  | rejected | overrun => exact ⟨_, rfl, Nat.zero_le 25⟩
  | executed fetches =>
      rw [step_of_fetches fetches] at stepped
      obtain ⟨payload, recorded, quoted⟩ := execute_quotes code final stepped
      exact ⟨payload, recorded, trapDetails_length quoted⟩

end Interpreter

end T81VM.VM
