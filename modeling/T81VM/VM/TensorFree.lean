import T81VM.VM.Retrace

/-!
# Machines without tensors

Every tensor is computed from tensors, and nothing makes the first one: a
load empties the pools, and no other call puts a tensor or a shape into them.
So a tensor opcode never gets past its guards.
-/

namespace T81VM.VM

open Tisc PartialSystem

/-- The opcodes that look up tensors. -/
def looksUpTensors : Opcode → Bool
  | .tVecAdd | .tVecMul | .tMatMul | .tTenDot | .tTranspose
  | .tExp | .tSqrt | .tSiLU | .tSoftmax | .tRMSNorm | .tRoPE
  | .chkShape => true
  | _ => false

namespace Interpreter

/-- No tensor and no shape has been interned. -/
structure TensorFree (vm : Interpreter) : Prop where
  tensors : vm.state.tensorPool = []
  shapes : vm.state.shapePool = []

/-- The operands of a tensor opcode carry the tags it asks for. -/
def operandsTagged (vm : Interpreter) (insn : Insn) : Except Stuck Bool :=
  match insn.opcode with
  | .tVecAdd | .tVecMul | .tMatMul | .tTenDot =>
      vm.tagsAre insn .tensorHandle .tensorHandle
  | .chkShape => vm.tagsAre insn .tensorHandle .shapeHandle
  | _ => vm.tagIs insn.b .tensorHandle

/-- The fault of a tensor opcode that finds no tensor. -/
def missingFault (tagged : Bool) : Trap :=
  if tagged then .decodeFault else .typeFault

/-- What a tensor opcode does when there is no tensor. -/
def findNoTensor (vm : Interpreter) (insn : Insn) (pc : Nat) : Outcome := do
  let tagged ← vm.operandsTagged insn
  .ok (vm.trap (missingFault tagged) insn.opcode pc)

variable {host : Host} {vm final : Interpreter} {insn : Insn} {pc : Nat}
  {result : Expected}

theorem poolEntry_nil {α : Type} {handle : Int64} :
    poolEntry ([] : List α) handle = none := by
  unfold poolEntry
  split <;> rfl

theorem TensorFree.tensorPtr_eq (free : vm.TensorFree) (handle : Int64) :
    vm.tensorPtr handle = none := by
  rw [tensorPtr, free.tensors]
  exact poolEntry_nil

/-- A register whose tag was read can be read. -/
theorem register_of_tagIs {idx : Int64} {tag : ValueTag} {tagged : Bool}
    (read : vm.tagIs idx tag = .ok tagged) :
    ∃ value, vm.register idx = .ok value := by
  obtain ⟨actual, readTag, _⟩ := bind_eq_ok.mp read
  obtain ⟨reg, index, _⟩ := registerTag_eq_ok.mp readTag
  exact ⟨_, register_eq_ok.mpr ⟨reg, index, rfl⟩⟩

/-- Operands that carry their tags can both be read. -/
theorem registers_of_tagsAre {left right : ValueTag}
    (read : vm.tagsAre insn left right = .ok true) :
    (∃ lhs, vm.register insn.b = .ok lhs) ∧
      ∃ rhs, vm.register insn.c = .ok rhs := by
  obtain ⟨fits, first, rest⟩ := bind_eq_ok.mp read
  cases fits with
  | false => cases rest
  | true => exact ⟨register_of_tagIs first, register_of_tagIs rest⟩

/-- A unary tensor opcode traps, whatever it would compute. -/
theorem TensorFree.withTensor_eq (free : vm.TensorFree)
    {compute : TensorValue → Outcome} :
    vm.withTensor insn pc compute = (do
      let tagged ← vm.tagIs insn.b .tensorHandle
      .ok (vm.trap (missingFault tagged) insn.opcode pc)) := by
  unfold withTensor
  cases read : vm.tagIs insn.b .tensorHandle with
  | error reason => rfl
  | ok tagged =>
      cases tagged with
      | false => rfl
      | true =>
          obtain ⟨handle, found⟩ := register_of_tagIs read
          simp [found, free.tensorPtr_eq, missingFault, bind, Except.bind]

/-- So does a binary one. -/
theorem TensorFree.withTensorPair_eq (free : vm.TensorFree)
    {compute : TensorValue → TensorValue → Outcome} :
    vm.withTensorPair insn pc compute = (do
      let tagged ← vm.tagsAre insn .tensorHandle .tensorHandle
      .ok (vm.trap (missingFault tagged) insn.opcode pc)) := by
  unfold withTensorPair
  cases read : vm.tagsAre insn .tensorHandle .tensorHandle with
  | error reason => rfl
  | ok tagged =>
      cases tagged with
      | false => rfl
      | true =>
          obtain ⟨⟨lhs, left⟩, rhs, right⟩ := registers_of_tagsAre read
          simp [left, right, free.tensorPtr_eq, missingFault, bind,
            Except.bind]

theorem TensorFree.executeChkShape_eq (free : vm.TensorFree) :
    vm.executeChkShape insn pc = (do
      let tagged ← vm.tagsAre insn .tensorHandle .shapeHandle
      .ok (vm.trap (missingFault tagged) insn.opcode pc)) := by
  unfold executeChkShape
  cases read : vm.tagsAre insn .tensorHandle .shapeHandle with
  | error reason => rfl
  | ok tagged =>
      cases tagged with
      | false => rfl
      | true =>
          obtain ⟨⟨tensor, left⟩, shape, right⟩ := registers_of_tagsAre read
          simp [left, right, free.tensorPtr_eq, missingFault, bind,
            Except.bind]

/-- Without tensors a tensor opcode raises a fault that its operand tags
decide, and computes nothing. -/
theorem TensorFree.execute_eq (free : vm.TensorFree)
    (looks : looksUpTensors insn.opcode = true) :
    vm.execute host insn pc = vm.findNoTensor insn pc := by
  cases opcode : insn.opcode with
  | tVecAdd | tVecMul | tMatMul | tTenDot =>
      have tags : vm.operandsTagged insn =
          vm.tagsAre insn .tensorHandle .tensorHandle := by
        rw [operandsTagged, opcode]
      rw [findNoTensor, tags]
      conv_lhs => rw [execute, opcode]
      simp only
      exact free.withTensorPair_eq
  | tTranspose | tExp | tSqrt | tSiLU | tSoftmax | tRMSNorm | tRoPE =>
      have tags : vm.operandsTagged insn =
          vm.tagIs insn.b .tensorHandle := by
        rw [operandsTagged, opcode]
      rw [findNoTensor, tags]
      conv_lhs => rw [execute, opcode]
      simp only
      exact free.withTensor_eq
  | chkShape =>
      have tags : vm.operandsTagged insn =
          vm.tagsAre insn .tensorHandle .shapeHandle := by
        rw [operandsTagged, opcode]
      rw [findNoTensor, tags]
      conv_lhs => rw [execute, opcode]
      simp only
      exact free.executeChkShape_eq
  | _ =>
      rw [opcode] at looks
      cases looks

/-! ## The pools stay empty -/

theorem tensorPool_of_madeOption {hasValue : Bool} {value : Int64}
    {tag : ValueTag} {answer : Expected × Interpreter}
    (executed : (do
      let (handle, vm) ← vm.internOption hasValue tag value
      vm.finishWrite insn pc handle .optionHandle) = .ok answer) :
    answer.2.state.tensorPool = vm.state.tensorPool := by
  obtain ⟨⟨handle, grown⟩, interned, rest⟩ := bind_eq_ok.mp executed
  obtain ⟨_, _, rfl⟩ := internOption_eq_ok.mp interned
  obtain ⟨reg, _, rfl⟩ := finishWrite_eq_ok.mp rest
  rfl

theorem tensorPool_of_madeResult {isOk : Bool} {value : Int64}
    {tag : ValueTag} {answer : Expected × Interpreter}
    (executed : (do
      let (handle, vm) ← vm.internResult isOk tag value
      vm.finishWrite insn pc handle .resultHandle) = .ok answer) :
    answer.2.state.tensorPool = vm.state.tensorPool := by
  obtain ⟨⟨handle, grown⟩, interned, rest⟩ := bind_eq_ok.mp executed
  obtain ⟨_, _, rfl⟩ := internResult_eq_ok.mp interned
  obtain ⟨reg, _, rfl⟩ := finishWrite_eq_ok.mp rest
  rfl

theorem tensorPool_of_madeEnum {variantId value : Int64} {hasPayload : Bool}
    {tag : ValueTag} {answer : Expected × Interpreter}
    (executed : (do
      let (handle, vm) ← vm.internEnum variantId hasPayload tag value
      vm.finishWrite insn pc handle .enumHandle) = .ok answer) :
    answer.2.state.tensorPool = vm.state.tensorPool := by
  obtain ⟨⟨handle, grown⟩, interned, rest⟩ := bind_eq_ok.mp executed
  obtain ⟨_, _, rfl⟩ := internEnum_eq_ok.mp interned
  obtain ⟨reg, _, rfl⟩ := finishWrite_eq_ok.mp rest
  rfl

/-- The opcodes that build structured values leave the tensors alone. -/
theorem tensorPool_of_interns {answer : Expected × Interpreter}
    (interns : role insn.opcode = .interns)
    (looks : looksUpTensors insn.opcode = false)
    (executed : vm.execute host insn pc = .ok answer) :
    answer.2.state.tensorPool = vm.state.tensorPool := by
  rw [execute] at executed
  cases opcode : insn.opcode <;> rw [opcode] at interns looks executed <;>
    first
    | exact absurd interns (by decide)
    | exact absurd looks (by decide)
    | simp only at executed
  case undefined => cases interns
  case makeOptionSome =>
    obtain ⟨⟨tag, value⟩, _, rest⟩ := bind_eq_ok.mp executed
    exact tensorPool_of_madeOption rest
  case makeOptionNone =>
    exact tensorPool_of_madeOption executed
  case makeResultOk | makeResultErr =>
    obtain ⟨⟨tag, value⟩, _, rest⟩ := bind_eq_ok.mp executed
    exact tensorPool_of_madeResult rest
  case makeEnumVariant =>
    exact tensorPool_of_madeEnum executed
  case makeEnumVariantPayload =>
    rw [executeMakeEnumVariantPayload] at executed
    by_cases negative : insn.c < 0
    · rw [if_pos negative] at executed
      cases executed
      rfl
    · rw [if_neg negative] at executed
      obtain ⟨⟨tag, value⟩, _, rest⟩ := bind_eq_ok.mp executed
      exact tensorPool_of_madeEnum rest

theorem TensorFree.of_execute {answer : Expected × Interpreter}
    (free : vm.TensorFree)
    (executed : vm.execute host insn pc = .ok answer) :
    answer.2.TensorFree := by
  have transition := execute_transition executed
  refine ⟨?_, (shapePool_of_transition transition).trans free.shapes⟩
  cases looks : looksUpTensors insn.opcode with
  | true =>
      rw [free.execute_eq looks] at executed
      obtain ⟨tagged, _, same⟩ := bind_eq_ok.mp executed
      cases same
      exact free.tensors
  | false =>
      by_cases interns : role insn.opcode = .interns
      · exact (tensorPool_of_interns interns looks executed).trans free.tensors
      · cases transition with
        | madeTensor same => exact absurd same interns
        | _ => exact free.tensors

theorem TensorFree.step (free : vm.TensorFree)
    (stepped : vm.step host = .ok (result, final)) : final.TensorFree := by
  cases step_stepped stepped with
  | resting => exact free
  | rejected | overrun => exact ⟨free.tensors, free.shapes⟩
  | executed fetches =>
      rw [step_of_fetches fetches] at stepped
      have begun : vm.beginInsn.TensorFree := ⟨free.tensors, free.shapes⟩
      exact begun.of_execute stepped

theorem TensorFree.setRegister {idx : Int32} {value : Int64}
    {tag : ValueTag} (free : vm.TensorFree) :
    (vm.setRegister idx value tag).TensorFree := by
  unfold Interpreter.setRegister
  split
  · exact ⟨free.tensors, free.shapes⟩
  · exact free

theorem Loads.tensorFree {program : Program} (loads : Loads program vm) :
    vm.TensorFree := by
  obtain ⟨policy, same⟩ := loads.state_eq
  constructor <;> rw [same] <;> rfl

/-- Every call keeps the pools empty, a load included. -/
theorem TensorFree.of_call {request : Call} {reply : Reply}
    (free : vm.TensorFree)
    (answered : call host request vm = .ok (reply, final)) :
    final.TensorFree := by
  cases request with
  | loadProgram program =>
      rw [call] at answered
      cases loaded : vm.loadProgram program with
      | error raised =>
          simp only [loaded] at answered
          cases answered
          exact free
      | ok fresh =>
          simp only [loaded] at answered
          cases answered
          exact Loads.tensorFree ⟨vm, loaded⟩
  | step =>
      obtain ⟨result, stepped, _⟩ := call_step_eq_ok.mp answered
      exact free.step stepped
  | runToHalt maxSteps =>
      obtain ⟨result, finished, _⟩ := call_runToHalt_eq_ok.mp answered
      exact runToHalt_invariant (fun _ _ _ free stepped => free.step stepped)
        free finished
  | setRegister idx value tag =>
      cases answered
      exact free.setRegister

/-- Whatever is done to a new object, its pools stay empty. -/
theorem tensorFree_of_run {calls : List Call} {replies : List Reply}
    (finished : run (Interpreter.call host) calls {} = .ok (replies, vm)) :
    vm.TensorFree :=
  run_invariant TensorFree (fun _ => True)
    (fun _ _ _ _ _ free answered => free.of_call answered)
    (fun _ _ => trivial) ⟨rfl, rfl⟩ finished

/-! ## Tags in guest runs -/

/-- The tags that name an entry of the tensor or the shape pool. -/
def namesTensor : ValueTag → Bool
  | .tensorHandle | .shapeHandle => true
  | _ => false

/-- No register and no payload carries a tag of the tensor pools. -/
structure Untagged (vm : Interpreter) : Prop extends TensorFree vm where
  registers : ∀ reg, namesTensor (vm.state.registerTags reg) = false
  options : ∀ entry ∈ vm.state.optionPool,
    namesTensor entry.payloadTag = false
  results : ∀ entry ∈ vm.state.resultPool,
    namesTensor entry.payloadTag = false
  enums : ∀ entry ∈ vm.state.enumPool,
    namesTensor entry.payloadTag = false

theorem Untagged.source {value : Int64} {tag : ValueTag}
    (untagged : vm.Untagged) (source : Source vm value tag) :
    namesTensor tag = false := by
  cases source with
  | computed | weights => rfl
  | register reg => exact untagged.registers reg
  | optionPayload member => exact untagged.options _ member
  | resultPayload member => exact untagged.results _ member
  | enumPayload member => exact untagged.enums _ member

theorem namesTensor_update {tags : RegisterFile ValueTag} {reg : Fin 243}
    {tag : ValueTag} (before : ∀ other, namesTensor (tags other) = false)
    (written : namesTensor tag = false) (other : Fin 243) :
    namesTensor (Function.update tags reg tag other) = false := by
  by_cases same : other = reg
  · rw [same, Function.update_self]
    exact written
  · rw [Function.update_of_ne same]
    exact before other

theorem forall_mem_concat {α : Type} {property : α → Prop} {entries : List α}
    {entry : α} (before : ∀ other ∈ entries, property other)
    (last : property entry) : ∀ other ∈ entries ++ [entry], property other := by
  intro other member
  rcases List.mem_append.mp member with earlier | new
  · exact before other earlier
  · rw [List.mem_singleton.mp new]
    exact last

/-- An instruction copies tags from registers and payloads, or writes one of
its own that names no tensor. -/
theorem Untagged.transition {answer : Expected × Interpreter}
    (untagged : vm.Untagged) (free : answer.2.TensorFree)
    (transition : Transition vm insn pc answer) : answer.2.Untagged := by
  have tags := untagged.registers
  have options := untagged.options
  have results := untagged.results
  have enums := untagged.enums
  cases transition with
  | written _ _ source =>
      exact ⟨free, namesTensor_update tags (untagged.source source), options,
        results, enums⟩
  | madeOption _ _ source =>
      exact ⟨free, namesTensor_update tags rfl,
        forall_mem_concat options (untagged.source source), results, enums⟩
  | madeResult _ _ source =>
      exact ⟨free, namesTensor_update tags rfl, options,
        forall_mem_concat results (untagged.source source), enums⟩
  | madeEnum _ _ source =>
      exact ⟨free, namesTensor_update tags rfl, options, results,
        forall_mem_concat enums (untagged.source source)⟩
  | @madeTensor _ operand _ _ _ tagged =>
      have named := tags operand
      rw [tagged] at named
      cases named
  | bumped | popped | stackAllocated | heapAllocated =>
      exact ⟨free, namesTensor_update tags rfl, options, results, enums⟩
  | _ => exact ⟨free, tags, options, results, enums⟩

theorem Untagged.step (untagged : vm.Untagged)
    (stepped : vm.step host = .ok (result, final)) : final.Untagged := by
  have free := untagged.toTensorFree.step stepped
  cases step_stepped stepped with
  | resting => exact untagged
  | rejected | overrun =>
      exact ⟨free, untagged.registers, untagged.options, untagged.results,
        untagged.enums⟩
  | executed fetches transition =>
      have begun : vm.beginInsn.Untagged :=
        ⟨⟨untagged.tensors, untagged.shapes⟩, untagged.registers,
          untagged.options, untagged.results, untagged.enums⟩
      exact begun.transition free transition

theorem Loads.untagged {program : Program} (loads : Loads program vm) :
    vm.Untagged := by
  have free := loads.tensorFree
  obtain ⟨policy, same⟩ := loads.state_eq
  refine ⟨free, ?_, ?_, ?_, ?_⟩ <;> rw [same]
  · intro reg
    rfl
  all_goals
    intro entry member
    cases member

/-- Without the tags the guards of a tensor opcode stop at the first one. -/
theorem Untagged.operandsTagged_eq (untagged : vm.Untagged) {tagged : Bool}
    (read : vm.operandsTagged insn = .ok tagged) : tagged = false := by
  have never : ∀ idx, vm.tagIs idx .tensorHandle ≠ .ok true := by
    intro idx same
    obtain ⟨reg, _, tag⟩ := tagIs_eq_true.mp same
    have named := untagged.registers reg
    rw [tag] at named
    cases named
  have pairs : ∀ tag, vm.tagsAre insn .tensorHandle tag ≠ .ok true :=
    fun tag same => never insn.b (tagsAre_left_eq same)
  rw [operandsTagged] at read
  cases tagged with
  | false => rfl
  | true =>
      cases opcode : insn.opcode <;> rw [opcode] at read <;>
        first
        | exact absurd read (pairs _)
        | exact absurd read (never _)

/-! ## Tensor opcodes -/

/-- The tensor opcodes of an object with this history compute nothing. -/
structure TensorsUnreachable (host : Host) (vm : Interpreter) : Prop where
  pools : vm.TensorFree
  traps : ∀ insn, vm.Fetches insn → looksUpTensors insn.opcode = true →
    vm.step host = vm.beginInsn.findNoTensor insn vm.state.pc
  guests : ∀ program, GuestReachable host program vm →
    ∀ insn result final, vm.Fetches insn →
      looksUpTensors insn.opcode = true →
      vm.step host = .ok (result, final) → result = .error .typeFault

/-- A tensor opcode on registers that hold integers. -/
def addNoTensors : Program where
  insns := [{ opcode := .tVecAdd, a := 0, b := 1, c := 2 }]
  axionPolicyText := []
  fits := by decide

end Interpreter

end T81VM.VM
