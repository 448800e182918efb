import T81VM.VM.Transition

/-!
# The dispatch loop performs transitions

One lemma for each branch of the switch, and their assembly
`execute_transition`.
-/

namespace T81VM.VM

open Tisc

namespace Interpreter

variable {host : Host} {vm : Interpreter} {insn : Insn} {pc : Nat}
  {answer : Expected × Interpreter}

theorem tagIs_eq_true {idx : Int64} {tag : ValueTag} :
    vm.tagIs idx tag = .ok true ↔
      ∃ reg, registerIndex idx = .ok reg ∧
        vm.state.registerTags reg = tag := by
  rw [tagIs, bind_eq_ok]
  constructor
  · rintro ⟨actual, read, same⟩
    obtain ⟨reg, index, rfl⟩ := registerTag_eq_ok.mp read
    exact ⟨reg, index, by simpa using Except.ok.inj same⟩
  · rintro ⟨reg, index, rfl⟩
    refine ⟨_, registerTag_eq_ok.mpr ⟨reg, index, rfl⟩, ?_⟩
    exact congrArg Except.ok (beq_self_eq_true _)

theorem payloadOf_eq_ok {idx : Int64} {tag : ValueTag} {value : Int64} :
    vm.payloadOf idx = .ok (tag, value) ↔
      ∃ reg, registerIndex idx = .ok reg ∧
        tag = vm.state.registerTags reg ∧
        value = vm.state.registers reg := by
  rw [payloadOf, bind_eq_ok]
  constructor
  · rintro ⟨readTag, tagRead, rest⟩
    obtain ⟨readValue, valueRead, same⟩ := bind_eq_ok.mp rest
    obtain ⟨reg, index, rfl⟩ := registerTag_eq_ok.mp tagRead
    obtain ⟨other, otherIndex, rfl⟩ := register_eq_ok.mp valueRead
    rw [index] at otherIndex
    cases otherIndex
    cases same
    exact ⟨reg, index, rfl, rfl⟩
  · rintro ⟨reg, index, rfl, rfl⟩
    exact ⟨_, registerTag_eq_ok.mpr ⟨reg, index, rfl⟩,
      bind_eq_ok.mpr ⟨_, register_eq_ok.mpr ⟨reg, index, rfl⟩, rfl⟩⟩

theorem appendPool_eq_ok {α : Type} {pool result : List α} {value : α} :
    appendPool pool value = .ok result ↔
      pool.length < maxPool ∧ result = pool ++ [value] := by
  unfold appendPool
  split
  · rename_i room
    simp [room, eq_comm]
  · rename_i full
    simp [full]

/-- Appending to a pool and taking the new size as the handle. -/
theorem appendPool_bind_eq_ok {α : Type} {pool : List α} {value : α}
    {update : List α → Interpreter} {handle : Int64} {final : Interpreter} :
    (do
      let grown ← appendPool pool value
      return (ofSize grown.length, update grown)) =
        (.ok (handle, final) : Except Stuck (Int64 × Interpreter)) ↔
      pool.length < maxPool ∧ handle = ofSize (pool.length + 1) ∧
        final = update (pool ++ [value]) := by
  rw [bind_eq_ok]
  constructor
  · rintro ⟨grown, appended, same⟩
    rw [appendPool_eq_ok] at appended
    obtain ⟨room, rfl⟩ := appended
    cases same
    exact ⟨room, by simp, rfl⟩
  · rintro ⟨room, rfl, rfl⟩
    refine ⟨_, appendPool_eq_ok.mpr ⟨room, rfl⟩, ?_⟩
    rw [List.length_append]
    rfl

theorem internOption_eq_ok {hasValue : Bool} {tag : ValueTag}
    {payload handle : Int64} {final : Interpreter} :
    vm.internOption hasValue tag payload = .ok (handle, final) ↔
      vm.state.optionPool.length < maxPool ∧
        handle = ofSize (vm.state.optionPool.length + 1) ∧
        final = { vm with
          state := { vm.state with
            optionPool := vm.state.optionPool
              ++ [{ hasValue, payloadTag := tag, payload }] } } :=
  appendPool_bind_eq_ok

theorem internResult_eq_ok {isOk : Bool} {tag : ValueTag}
    {payload handle : Int64} {final : Interpreter} :
    vm.internResult isOk tag payload = .ok (handle, final) ↔
      vm.state.resultPool.length < maxPool ∧
        handle = ofSize (vm.state.resultPool.length + 1) ∧
        final = { vm with
          state := { vm.state with
            resultPool := vm.state.resultPool
              ++ [{ isOk, payloadTag := tag, payload }] } } :=
  appendPool_bind_eq_ok

theorem internEnum_eq_ok {variantId : Int64} {hasPayload : Bool}
    {tag : ValueTag} {payload handle : Int64} {final : Interpreter} :
    vm.internEnum variantId hasPayload tag payload = .ok (handle, final) ↔
      vm.state.enumPool.length < maxPool ∧
        handle = ofSize (vm.state.enumPool.length + 1) ∧
        final = { vm with
          state := { vm.state with
            enumPool := vm.state.enumPool
              ++ [{ variantId, hasPayload, payloadTag := tag, payload }] } } :=
  appendPool_bind_eq_ok

theorem internTensor_eq_ok {shape data : List Int64} {handle : Int64}
    {final : Interpreter} :
    vm.internTensor shape data = .ok (handle, final) ↔
      vm.state.tensorPool.length < maxPool ∧
        handle = ofSize (vm.state.tensorPool.length + 1) ∧
        final = { vm with
          state := { vm.state with
            tensorPool := vm.state.tensorPool ++ [{ shape, data }] } } :=
  appendPool_bind_eq_ok

theorem memoryAt_eq_ok {addr : Nat} {value : Int64} :
    vm.memoryAt addr = .ok value ↔ vm.state.memory[addr]? = some value := by
  unfold memoryAt
  split
  · rename_i read
    simp [read]
  · rename_i missing
    simp [missing]

theorem setMemory_eq_ok {addr : Nat} {value : Int64} {final : Interpreter} :
    vm.setMemory addr value = .ok final ↔
      addr < vm.state.memory.length ∧
        final = { vm with
          state := { vm.state with
            memory := vm.state.memory.set addr value } } := by
  unfold setMemory
  split
  · rename_i inside
    simp [inside, eq_comm]
  · rename_i outside
    simp [outside]

theorem pushRegister_eq_none {idx : Int64} :
    vm.pushRegister idx = .ok none ↔
      vm.state.sp = 0 ∨
        vm.state.sp - 1 < vm.state.layout.stack.start := by
  unfold pushRegister
  split
  · rename_i full
    simp [full]
  · rename_i room
    simp only [room, iff_false, bind_eq_ok]
    rintro ⟨value, _, stored, _, impossible⟩
    cases impossible

theorem pushRegister_eq_some {idx : Int64} {final : Interpreter} :
    vm.pushRegister idx = .ok (some final) ↔
      vm.state.sp ≠ 0 ∧
        vm.state.layout.stack.start ≤ vm.state.sp - 1 ∧
        vm.state.sp - 1 < vm.state.memory.length ∧
        ∃ reg, registerIndex idx = .ok reg ∧
          final = { vm with
            state := { vm.state with
              sp := vm.state.sp - 1
              memory := vm.state.memory.set (vm.state.sp - 1)
                (vm.state.registers reg) } } := by
  unfold pushRegister
  split
  · rename_i full
    simp only [reduceCtorEq, Except.ok.injEq, false_iff]
    rintro ⟨nonzero, above, _⟩
    rcases full with zero | below
    · exact nonzero zero
    · omega
  · rename_i room
    obtain ⟨nonzero, above⟩ := not_or.mp room
    rw [bind_eq_ok]
    constructor
    · rintro ⟨value, read, rest⟩
      obtain ⟨reg, index, rfl⟩ := register_eq_ok.mp read
      obtain ⟨stored, written, same⟩ := bind_eq_ok.mp rest
      rw [setMemory_eq_ok] at written
      obtain ⟨inside, rfl⟩ := written
      cases same
      exact ⟨nonzero, Nat.le_of_not_gt above, inside, reg, index, rfl⟩
    · rintro ⟨_, _, inside, reg, index, rfl⟩
      exact ⟨_, register_eq_ok.mpr ⟨reg, index, rfl⟩,
        bind_eq_ok.mpr ⟨_, setMemory_eq_ok.mpr ⟨inside, rfl⟩, rfl⟩⟩

theorem popRegister_eq_none {idx : Int64} :
    vm.popRegister idx = .ok none ↔
      vm.state.layout.stack.limit ≤ vm.state.sp := by
  unfold popRegister
  split
  · rename_i empty
    simpa using empty
  · rename_i room
    simp only [ge_iff_le] at room
    simp only [room, iff_false, bind_eq_ok]
    rintro ⟨value, _, reg, _, impossible⟩
    cases impossible

theorem popRegister_eq_some {idx : Int64} {final : Interpreter} :
    vm.popRegister idx = .ok (some final) ↔
      vm.state.sp < vm.state.layout.stack.limit ∧
        ∃ reg value, registerIndex idx = .ok reg ∧
          vm.state.memory[vm.state.sp]? = some value ∧
          final = { vm.assignRegister reg value .int with
            state := { (vm.assignRegister reg value .int).state with
              sp := vm.state.sp + 1 } } := by
  unfold popRegister
  split
  · rename_i empty
    simp only [reduceCtorEq, Except.ok.injEq, false_iff]
    rintro ⟨room, _⟩
    omega
  · rename_i room
    rw [bind_eq_ok]
    constructor
    · rintro ⟨value, read, rest⟩
      obtain ⟨reg, index, same⟩ := bind_eq_ok.mp rest
      cases same
      exact ⟨Nat.lt_of_not_ge room, reg, value, index,
        memoryAt_eq_ok.mp read, rfl⟩
    · rintro ⟨_, reg, value, index, read, rfl⟩
      exact ⟨value, memoryAt_eq_ok.mpr read,
        bind_eq_ok.mpr ⟨reg, index, rfl⟩⟩

theorem poolEntry_mem {α : Type} {pool : List α} {handle : Int64} {entry : α}
    (found : poolEntry pool handle = some entry) : entry ∈ pool := by
  unfold poolEntry at found
  split at found
  · contradiction
  · exact List.mem_of_getElem? found

theorem validMem_iff {idx : Int64} :
    vm.validMem idx = true ↔
      0 ≤ idx ∧ toSize idx < vm.state.memory.length ∧
        vm.segmentOf (toSize idx) ≠ .unknown := by
  unfold validMem
  split
  · rename_i negative
    simp [Int64.not_le.mpr negative]
  · rename_i nonneg
    split
    · rename_i outside
      simp [Nat.not_lt.mpr outside]
    · rename_i inside
      simp [Int64.not_lt.mp nonneg, Nat.lt_of_not_ge inside]

/-! ## Branches that write or idle -/

theorem finish_eq_ok :
    vm.finish insn pc = .ok answer ↔ answer = vm.finished insn pc := by
  constructor
  · intro executed
    cases executed
    rfl
  · rintro rfl
    rfl

/-- Going on without a log entry. -/
theorem finish_transition (idles : role insn.opcode = .idles)
    (flags : Flags)
    (executed : ({ vm with state := { vm.state with flags } }).finish insn pc
      = .ok answer) :
    Transition vm insn pc answer := by
  rw [finish_eq_ok.mp executed]
  have idle := @Transition.idled vm insn pc flags [] idles (by simp) (by simp)
  rwa [appendLog_nil] at idle

theorem executeLoadImm_transition (writes : role insn.opcode = .writes)
    (executed : vm.executeLoadImm insn pc = .ok answer) :
    Transition vm insn pc answer := by
  rw [executeLoadImm, bind_eq_ok] at executed
  obtain ⟨middle, assigned, rest⟩ := executed
  obtain ⟨reg, index, rfl⟩ := setRegisterValue_eq_ok.mp assigned
  rw [finish_eq_ok.mp rest]
  exact .silentWrite writes index (.computed insn.b)

theorem executeLoad_transition (writes : role insn.opcode = .writes)
    (executed : vm.executeLoad insn pc = .ok answer) :
    Transition vm insn pc answer := by
  unfold executeLoad at executed
  split at executed
  · cases executed
    exact .loggedFault
  · obtain ⟨value, _, rest⟩ := bind_eq_ok.mp executed
    exact .of_finishWrite writes (.computed value) rest

theorem executeArithmetic_transition (writes : role insn.opcode = .writes)
    (executed : vm.executeArithmetic host insn pc = .ok answer) :
    Transition vm insn pc answer := by
  rw [executeArithmetic, bind_eq_ok] at executed
  obtain ⟨lhs, _, rest⟩ := executed
  obtain ⟨rhs, _, rest⟩ := bind_eq_ok.mp rest
  split at rest
  · cases rest
    exact .silentFault
  · obtain ⟨result, _, rest⟩ := bind_eq_ok.mp rest
    obtain ⟨middle, assigned, rest⟩ := bind_eq_ok.mp rest
    obtain ⟨reg, index, rfl⟩ := setRegisterValue_eq_ok.mp assigned
    rw [finish_eq_ok.mp rest]
    exact .silentWrite writes index (.computed result)

/-- A register copied together with its tag. -/
theorem source_of_reads {idx value : Int64} {tag : ValueTag}
    (read : vm.register idx = .ok value)
    (tagRead : vm.registerTag idx = .ok tag) : Source vm value tag := by
  obtain ⟨reg, index, rfl⟩ := register_eq_ok.mp read
  obtain ⟨other, otherIndex, rfl⟩ := registerTag_eq_ok.mp tagRead
  rw [index] at otherIndex
  cases otherIndex
  exact .register reg

theorem executeMove_transition (writes : role insn.opcode = .writes)
    (executed : vm.executeMove insn pc = .ok answer) :
    Transition vm insn pc answer := by
  rw [executeMove, bind_eq_ok] at executed
  obtain ⟨value, read, rest⟩ := executed
  obtain ⟨tag, tagRead, rest⟩ := bind_eq_ok.mp rest
  exact .of_finishWrite writes (source_of_reads read tagRead) rest

theorem executeNeg_transition (writes : role insn.opcode = .writes)
    (executed : vm.executeNeg host insn pc = .ok answer) :
    Transition vm insn pc answer := by
  rw [executeNeg, bind_eq_ok] at executed
  obtain ⟨value, _, rest⟩ := executed
  obtain ⟨negated, _, rest⟩ := bind_eq_ok.mp rest
  exact .of_finishWrite writes (.computed negated) rest

theorem executeTNot_transition (writes : role insn.opcode = .writes)
    (executed : vm.executeTNot host insn pc = .ok answer) :
    Transition vm insn pc answer := by
  rw [executeTNot, bind_eq_ok] at executed
  obtain ⟨value, _, rest⟩ := executed
  obtain ⟨negated, _, rest⟩ := bind_eq_ok.mp rest
  exact .of_finishWrite writes (.computed negated) rest

theorem executeTrit_transition (writes : role insn.opcode = .writes)
    (executed : vm.executeTrit host insn pc = .ok answer) :
    Transition vm insn pc answer := by
  rw [executeTrit, bind_eq_ok] at executed
  obtain ⟨lhs, _, rest⟩ := executed
  obtain ⟨rhs, _, rest⟩ := bind_eq_ok.mp rest
  obtain ⟨result, _, rest⟩ := bind_eq_ok.mp rest
  exact .of_finishWrite writes (.computed result) rest

theorem executeCompare_transition (writes : role insn.opcode = .writes)
    (executed : vm.executeCompare insn pc = .ok answer) :
    Transition vm insn pc answer := by
  rw [executeCompare, bind_eq_ok] at executed
  obtain ⟨lhs, _, rest⟩ := executed
  obtain ⟨rhs, _, rest⟩ := bind_eq_ok.mp rest
  exact .of_finishWrite writes (.computed _) rest

theorem executeSetF_transition (writes : role insn.opcode = .writes)
    (executed : vm.executeSetF insn pc = .ok answer) :
    Transition vm insn pc answer := by
  rw [executeSetF, bind_eq_ok] at executed
  obtain ⟨value, _, rest⟩ := executed
  exact .of_finishWrite writes (.computed value) rest

theorem executeWeightsLoad_transition (writes : role insn.opcode = .writes)
    (executed : vm.executeWeightsLoad host insn pc = .ok answer) :
    Transition vm insn pc answer := by
  rw [executeWeightsLoad, bind_eq_ok] at executed
  obtain ⟨handle, _, rest⟩ := executed
  obtain ⟨middle, assigned, rest⟩ := bind_eq_ok.mp rest
  obtain ⟨reg, index, rfl⟩ := setRegisterValue_eq_ok.mp assigned
  obtain ⟨written, read, rest⟩ := bind_eq_ok.mp rest
  obtain ⟨same, sameIndex, rfl⟩ := register_eq_ok.mp read
  rw [index] at sameIndex
  cases sameIndex
  rw [finish_eq_ok.mp rest]
  have cell : ((vm.writeRegister reg handle .weightsTensorHandle).logEvent
      insn.opcode (text "weights handle loaded")).state.registers reg =
        handle := Function.update_self ..
  rw [cell]
  exact @Transition.written vm insn pc reg handle .weightsTensorHandle
    [{ opcode := insn.opcode, reason := text "weights handle loaded" }]
    writes index (.weights handle) (by simp) (by simp)

theorem executeAxRead_transition (writes : role insn.opcode = .writes)
    (executed : vm.executeAxRead insn pc = .ok answer) :
    Transition vm insn pc answer := by
  unfold executeAxRead at executed
  simp only at executed
  split at executed
  · cases executed
    exact .loggedFault
  · obtain ⟨reg, index, rfl⟩ := finishWrite_eq_ok.mp executed
    rw [logAxionGuard, logEvent_eq_appendLog]
    exact .written writes index (.computed insn.b) (by simp) (by simp)

theorem executeAxVerify_transition (writes : role insn.opcode = .writes)
    (executed : vm.executeAxVerify insn pc = .ok answer) :
    Transition vm insn pc answer := by
  unfold executeAxVerify at executed
  simp only at executed
  split at executed
  · cases executed
    exact .loggedFault
  · obtain ⟨reg, index, rfl⟩ := finishWrite_eq_ok.mp executed
    rw [logAxionGuard, logEvent_eq_appendLog]
    exact .written writes index (.computed 0) (by simp) (by simp)

theorem executeAxSet_transition (idles : role insn.opcode = .idles)
    (executed : vm.executeAxSet insn pc = .ok answer) :
    Transition vm insn pc answer := by
  rw [executeAxSet, bind_eq_ok] at executed
  obtain ⟨value, _, rest⟩ := executed
  obtain ⟨addr, _, rest⟩ := bind_eq_ok.mp rest
  simp only at rest
  split at rest
  · cases rest
    exact .loggedFault
  · rw [finish_eq_ok.mp rest, logAxionGuard, logEvent_eq_appendLog]
    exact @Transition.idled vm insn pc vm.state.flags _ idles (by simp)
      (by simp)

theorem executeCmp_transition (idles : role insn.opcode = .idles)
    (executed : vm.executeCmp host insn pc = .ok answer) :
    Transition vm insn pc answer := by
  rw [executeCmp, bind_eq_ok] at executed
  obtain ⟨lhs, _, rest⟩ := executed
  obtain ⟨rhs, _, rest⟩ := bind_eq_ok.mp rest
  obtain ⟨difference, _, rest⟩ := bind_eq_ok.mp rest
  exact finish_transition idles _ rest

theorem executeBump_transition {op : Int64 → SignedOp}
    (bumps : role insn.opcode = .bumps)
    (executed : vm.executeBump host insn pc op = .ok answer) :
    Transition vm insn pc answer := by
  rw [executeBump, bind_eq_ok] at executed
  obtain ⟨old, _, rest⟩ := executed
  obtain ⟨value, _, rest⟩ := bind_eq_ok.mp rest
  obtain ⟨reg, index, rest⟩ := bind_eq_ok.mp rest
  rw [finish_eq_ok.mp rest]
  exact .bumped bumps index

/-! ## Memory, stack and control -/

theorem executeStore_transition (stores : role insn.opcode = .stores)
    (executed : vm.executeStore insn pc = .ok answer) :
    Transition vm insn pc answer := by
  unfold executeStore at executed
  split at executed
  · cases executed
    exact .loggedFault
  · rename_i valid
    obtain ⟨value, read, rest⟩ := bind_eq_ok.mp executed
    obtain ⟨reg, index, rfl⟩ := register_eq_ok.mp read
    obtain ⟨stored, written, rest⟩ := bind_eq_ok.mp rest
    rw [setMemory_eq_ok] at written
    obtain ⟨_, rfl⟩ := written
    have inside : vm.validMem insn.a = true := by simpa using valid
    rw [finish_eq_ok.mp rest]
    have known : vm.segmentOf (toSize insn.a) ≠ .unknown :=
      (validMem_iff.mp inside).2.2
    rw [logSegmentEvent, if_neg known, logEvent_eq_appendLog]
    exact .stored stores index inside (by simp) (by simp)

theorem executePush_transition (pushes : role insn.opcode = .pushes)
    (executed : vm.executePush insn pc = .ok answer) :
    Transition vm insn pc answer := by
  rw [executePush, bind_eq_ok] at executed
  obtain ⟨outcome, pushed, rest⟩ := executed
  cases outcome with
  | none =>
      cases rest
      exact .loggedFault
  | some final =>
      obtain ⟨nonzero, above, inside, reg, index, rfl⟩ :=
        pushRegister_eq_some.mp pushed
      rw [finish_eq_ok.mp rest]
      exact .pushed pushes index nonzero above inside

theorem executePop_transition (pops : role insn.opcode = .pops)
    (executed : vm.executePop insn pc = .ok answer) :
    Transition vm insn pc answer := by
  rw [executePop, bind_eq_ok] at executed
  obtain ⟨outcome, popped, rest⟩ := executed
  cases outcome with
  | none =>
      cases rest
      exact .loggedFault
  | some final =>
      obtain ⟨below, reg, value, index, cell, rfl⟩ :=
        popRegister_eq_some.mp popped
      obtain ⟨read, readBack, rest⟩ := bind_eq_ok.mp rest
      obtain ⟨same, sameIndex, rfl⟩ := register_eq_ok.mp readBack
      rw [index] at sameIndex
      cases sameIndex
      rw [finish_eq_ok.mp rest]
      have written : (vm.assignRegister reg value .int).state.registers reg
          = value := Function.update_self ..
      simp only [written]
      exact .popped pops index below cell

theorem not_leaves_iff {target : Int64} {size : Nat} :
    ¬ (target < 0 ∨ toSize target ≥ size) ↔
      0 ≤ target ∧ toSize target < size := by
  rw [not_or, Int64.not_lt, Nat.not_le]

theorem executeJump_transition (jumps : role insn.opcode = .jumps)
    (taken : jumpTaken vm.state.flags insn.opcode = true)
    (executed : vm.checkJumpTarget insn pc insn.a = .ok answer) :
    Transition vm insn pc answer := by
  unfold checkJumpTarget at executed
  split at executed
  · cases executed
    exact .silentFault
  · rename_i stays
    rw [not_leaves_iff] at stays
    obtain ⟨nonneg, inside⟩ := stays
    cases executed
    exact .jumped jumps taken nonneg inside

theorem executeJumpIf_transition (jumps : role insn.opcode = .jumps)
    (executed : vm.executeJumpIf insn pc
      (jumpTaken vm.state.flags insn.opcode) = .ok answer) :
    Transition vm insn pc answer := by
  unfold executeJumpIf at executed
  split at executed
  · rename_i taken
    exact executeJump_transition jumps taken executed
  · rename_i untaken
    rw [finish_eq_ok.mp executed]
    exact .passed jumps (Bool.eq_false_iff.mpr untaken)

theorem executeCall_transition (calls : role insn.opcode = .calls)
    (executed : vm.executeCall insn pc = .ok answer) :
    Transition vm insn pc answer := by
  rw [executeCall, bind_eq_ok] at executed
  obtain ⟨target, read, rest⟩ := executed
  obtain ⟨reg, index, rfl⟩ := register_eq_ok.mp read
  split at rest
  · cases rest
    exact .silentFault
  · rename_i stays
    rw [not_leaves_iff] at stays
    obtain ⟨nonneg, inside⟩ := stays
    cases rest
    exact .called calls index nonneg inside

theorem executeRet_transition (returns : role insn.opcode = .returns)
    (executed : vm.executeRet insn pc = .ok answer) :
    Transition vm insn pc answer := by
  unfold executeRet at executed
  split at executed
  · cases executed
    exact .silentFault
  · rename_i back callers frames
    cases executed
    exact .returned returns frames

theorem executeHalt_transition (halts : role insn.opcode = .halts)
    (executed : vm.executeHalt insn pc = .ok answer) :
    Transition vm insn pc answer := by
  rw [finish_eq_ok.mp executed]
  exact .halted halts

/-! ## Allocation -/

theorem executeStackAlloc_transition
    (allocates : role insn.opcode = .stackAllocates)
    (executed : vm.executeStackAlloc insn pc = .ok answer) :
    Transition vm insn pc answer := by
  unfold executeStackAlloc at executed
  split at executed
  · cases executed
    exact .silentFault
  · rename_i positive
    simp only at executed
    split at executed
    · cases executed
      exact .loggedFault
    · rename_i room
      obtain ⟨fits, above⟩ := not_or.mp room
      obtain ⟨middle, assigned, rest⟩ := bind_eq_ok.mp executed
      obtain ⟨reg, index, rfl⟩ := setRegisterValue_eq_ok.mp assigned
      rw [finish_eq_ok.mp rest, logEvent_eq_appendLog]
      exact .stackAllocated allocates index (Int64.not_le.mp positive)
        (Nat.le_of_not_gt fits) (Nat.le_of_not_gt above) (by simp) (by simp)

theorem executeStackFree_transition
    (releases : role insn.opcode = .stackFrees)
    (executed : vm.executeStackFree insn pc = .ok answer) :
    Transition vm insn pc answer := by
  unfold executeStackFree at executed
  split at executed
  · cases executed
    exact .silentFault
  · rename_i top frames stack
    obtain ⟨expected, read, rest⟩ := bind_eq_ok.mp executed
    obtain ⟨reg, index, rfl⟩ := register_eq_ok.mp read
    split at rest
    · cases rest
      exact .silentFault
    · rename_i fits
      obtain ⟨base, size⟩ := not_or.mp fits
      rw [finish_eq_ok.mp rest, logEvent_eq_appendLog]
      exact .stackFreed releases index stack (not_not.mp base)
        (not_not.mp size) (by simp) (by simp)

theorem executeHeapAlloc_transition
    (allocates : role insn.opcode = .heapAllocates)
    (executed : vm.executeHeapAlloc insn pc = .ok answer) :
    Transition vm insn pc answer := by
  unfold executeHeapAlloc at executed
  split at executed
  · cases executed
    exact .silentFault
  · rename_i positive
    simp only at executed
    split at executed
    · cases executed
      exact .loggedFault
    · rename_i fits
      obtain ⟨middle, assigned, rest⟩ := bind_eq_ok.mp executed
      obtain ⟨reg, index, rfl⟩ := setRegisterValue_eq_ok.mp assigned
      rw [finish_eq_ok.mp rest, logEvent_eq_appendLog]
      exact .heapAllocated allocates index (Int64.not_le.mp positive)
        (Nat.le_of_not_gt fits) (by simp) (by simp)

theorem executeHeapFree_transition
    (releases : role insn.opcode = .heapFrees)
    (executed : vm.executeHeapFree insn pc = .ok answer) :
    Transition vm insn pc answer := by
  unfold executeHeapFree at executed
  split at executed
  · cases executed
    exact .silentFault
  · rename_i top frames heap
    obtain ⟨expected, read, rest⟩ := bind_eq_ok.mp executed
    obtain ⟨reg, index, rfl⟩ := register_eq_ok.mp read
    split at rest
    · cases rest
      exact .silentFault
    · rename_i fits
      obtain ⟨base, size⟩ := not_or.mp fits
      rw [finish_eq_ok.mp rest, logEvent_eq_appendLog]
      exact .heapFreed releases index heap (not_not.mp base)
        (not_not.mp size) (by simp) (by simp)

/-! ## Structured values -/

theorem madeOption_transition {value : Int64} {tag : ValueTag}
    {hasValue : Bool} (interns : role insn.opcode = .interns)
    (source : Source vm value tag)
    (executed : (do
      let (handle, vm) ← vm.internOption hasValue tag value
      vm.finishWrite insn pc handle .optionHandle) = .ok answer) :
    Transition vm insn pc answer := by
  obtain ⟨⟨handle, grown⟩, interned, rest⟩ := bind_eq_ok.mp executed
  obtain ⟨room, rfl, rfl⟩ := internOption_eq_ok.mp interned
  obtain ⟨reg, index, rfl⟩ := finishWrite_eq_ok.mp rest
  exact @Transition.madeOption vm insn pc reg _ interns index source room

theorem madeResult_transition {value : Int64} {tag : ValueTag} {isOk : Bool}
    (interns : role insn.opcode = .interns) (source : Source vm value tag)
    (executed : (do
      let (handle, vm) ← vm.internResult isOk tag value
      vm.finishWrite insn pc handle .resultHandle) = .ok answer) :
    Transition vm insn pc answer := by
  obtain ⟨⟨handle, grown⟩, interned, rest⟩ := bind_eq_ok.mp executed
  obtain ⟨room, rfl, rfl⟩ := internResult_eq_ok.mp interned
  obtain ⟨reg, index, rfl⟩ := finishWrite_eq_ok.mp rest
  exact @Transition.madeResult vm insn pc reg _ interns index source room

theorem madeEnum_transition {variantId value : Int64} {tag : ValueTag}
    {hasPayload : Bool} (interns : role insn.opcode = .interns)
    (source : Source vm value tag)
    (executed : (do
      let (handle, vm) ← vm.internEnum variantId hasPayload tag value
      vm.finishWrite insn pc handle .enumHandle) = .ok answer) :
    Transition vm insn pc answer := by
  obtain ⟨⟨handle, grown⟩, interned, rest⟩ := bind_eq_ok.mp executed
  obtain ⟨room, rfl, rfl⟩ := internEnum_eq_ok.mp interned
  obtain ⟨reg, index, rfl⟩ := finishWrite_eq_ok.mp rest
  exact @Transition.madeEnum vm insn pc reg _ interns index source room

/-- A payload is read from one register together with its tag. -/
theorem source_of_payload {idx value : Int64} {tag : ValueTag}
    (read : vm.payloadOf idx = .ok (tag, value)) : Source vm value tag := by
  obtain ⟨reg, _, rfl, rfl⟩ := payloadOf_eq_ok.mp read
  exact .register reg

theorem executeMakeOptionSome_transition
    (interns : role insn.opcode = .interns)
    (executed : vm.executeMakeOptionSome insn pc = .ok answer) :
    Transition vm insn pc answer := by
  rw [executeMakeOptionSome, bind_eq_ok] at executed
  obtain ⟨⟨tag, value⟩, read, rest⟩ := executed
  exact madeOption_transition interns (source_of_payload read) rest

theorem executeMakeOptionNone_transition
    (interns : role insn.opcode = .interns)
    (executed : vm.executeMakeOptionNone insn pc = .ok answer) :
    Transition vm insn pc answer :=
  madeOption_transition interns (.computed 0) executed

theorem executeMakeResult_transition {isOk : Bool}
    (interns : role insn.opcode = .interns)
    (executed : vm.executeMakeResult insn pc isOk = .ok answer) :
    Transition vm insn pc answer := by
  rw [executeMakeResult, bind_eq_ok] at executed
  obtain ⟨⟨tag, value⟩, read, rest⟩ := executed
  exact madeResult_transition interns (source_of_payload read) rest

theorem executeMakeEnumVariant_transition
    (interns : role insn.opcode = .interns)
    (executed : vm.executeMakeEnumVariant insn pc = .ok answer) :
    Transition vm insn pc answer :=
  madeEnum_transition interns (.computed 0) executed

theorem executeMakeEnumVariantPayload_transition
    (interns : role insn.opcode = .interns)
    (executed : vm.executeMakeEnumVariantPayload insn pc = .ok answer) :
    Transition vm insn pc answer := by
  unfold executeMakeEnumVariantPayload at executed
  split at executed
  · cases executed
    exact .silentFault
  · obtain ⟨⟨tag, value⟩, read, rest⟩ := bind_eq_ok.mp executed
    exact madeEnum_transition interns (source_of_payload read) rest

theorem withHandle_transition {α : Type} {tag : ValueTag}
    {lookup : Int64 → Option α} {inspect : α → Option (Int64 × ValueTag)}
    (writes : role insn.opcode = .writes)
    (source : ∀ handle entry value valueTag, lookup handle = some entry →
      inspect entry = some (value, valueTag) → Source vm value valueTag)
    (executed : vm.withHandle insn pc tag lookup inspect = .ok answer) :
    Transition vm insn pc answer := by
  rw [withHandle, bind_eq_ok] at executed
  obtain ⟨tagged, _, rest⟩ := executed
  split at rest
  · cases rest
    exact .silentFault
  · obtain ⟨handle, _, rest⟩ := bind_eq_ok.mp rest
    split at rest
    · rename_i value valueTag found
      obtain ⟨entry, entryFound, inspected⟩ := Option.bind_eq_some_iff.mp found
      exact .of_finishWrite writes
        (source handle entry value valueTag entryFound inspected) rest
    · cases rest
      exact .silentFault

/-- An inspection that answers yes or no writes a computed value. -/
theorem source_of_test {α : Type} {test : α → Int64} {entry : α}
    {value : Int64} {tag : ValueTag}
    (inspected : some (test entry, ValueTag.int) = some (value, tag)) :
    Source vm value tag := by
  cases inspected
  exact .computed _

theorem executeOptionIsSome_transition (writes : role insn.opcode = .writes)
    (executed : vm.executeOptionIsSome insn pc = .ok answer) :
    Transition vm insn pc answer :=
  withHandle_transition writes
    (fun _ _ _ _ _ inspected => source_of_test inspected) executed

theorem executeResultIsOk_transition (writes : role insn.opcode = .writes)
    (executed : vm.executeResultIsOk insn pc = .ok answer) :
    Transition vm insn pc answer :=
  withHandle_transition writes
    (fun _ _ _ _ _ inspected => source_of_test inspected) executed

theorem executeEnumIsVariant_transition (writes : role insn.opcode = .writes)
    (executed : vm.executeEnumIsVariant insn pc = .ok answer) :
    Transition vm insn pc answer :=
  withHandle_transition writes
    (fun _ _ _ _ _ inspected => source_of_test inspected) executed

theorem executeOptionUnwrap_transition (writes : role insn.opcode = .writes)
    (executed : vm.executeOptionUnwrap insn pc = .ok answer) :
    Transition vm insn pc answer := by
  refine withHandle_transition writes ?_ executed
  intro handle entry value tag found inspected
  split at inspected
  · cases inspected
    exact .optionPayload (poolEntry_mem found)
  · contradiction

theorem executeResultUnwrapOk_transition
    (writes : role insn.opcode = .writes)
    (executed : vm.executeResultUnwrapOk insn pc = .ok answer) :
    Transition vm insn pc answer := by
  refine withHandle_transition writes ?_ executed
  intro handle entry value tag found inspected
  split at inspected
  · cases inspected
    exact .resultPayload (poolEntry_mem found)
  · contradiction

theorem executeResultUnwrapErr_transition
    (writes : role insn.opcode = .writes)
    (executed : vm.executeResultUnwrapErr insn pc = .ok answer) :
    Transition vm insn pc answer := by
  refine withHandle_transition writes ?_ executed
  intro handle entry value tag found inspected
  split at inspected
  · contradiction
  · cases inspected
    exact .resultPayload (poolEntry_mem found)

theorem executeEnumUnwrapPayload_transition
    (writes : role insn.opcode = .writes)
    (executed : vm.executeEnumUnwrapPayload insn pc = .ok answer) :
    Transition vm insn pc answer := by
  refine withHandle_transition writes ?_ executed
  intro handle entry value tag found inspected
  split at inspected
  · cases inspected
    exact .enumPayload (poolEntry_mem found)
  · contradiction

/-! ## Tensors -/

theorem finishTensor_transition {operand : Fin 243} {shape data : List Int64}
    (interns : role insn.opcode = .interns)
    (tagged : vm.state.registerTags operand = .tensorHandle)
    (executed : vm.finishTensor insn pc shape data = .ok answer) :
    Transition vm insn pc answer := by
  obtain ⟨⟨handle, grown⟩, interned, rest⟩ := bind_eq_ok.mp executed
  obtain ⟨room, rfl, rfl⟩ := internTensor_eq_ok.mp interned
  obtain ⟨reg, index, rfl⟩ := finishWrite_eq_ok.mp rest
  exact @Transition.madeTensor vm insn pc reg operand _ interns index tagged
    room

theorem tagsAre_left {left right : ValueTag}
    (tagged : vm.tagsAre insn left right = .ok true) :
    ∃ reg, vm.state.registerTags reg = left := by
  rw [tagsAre, bind_eq_ok] at tagged
  obtain ⟨fits, tag, rest⟩ := tagged
  cases fits with
  | false => cases rest
  | true =>
      obtain ⟨reg, _, same⟩ := tagIs_eq_true.mp tag
      exact ⟨reg, same⟩

/-- A binary tensor opcode traps, or computes with a tagged operand. -/
theorem withTensorPair_transition
    {compute : TensorValue → TensorValue → Outcome}
    (computes : ∀ operand lhs rhs,
      vm.state.registerTags operand = .tensorHandle →
      compute lhs rhs = .ok answer → Transition vm insn pc answer)
    (executed : vm.withTensorPair insn pc compute = .ok answer) :
    Transition vm insn pc answer := by
  rw [withTensorPair, bind_eq_ok] at executed
  obtain ⟨tagged, tags, rest⟩ := executed
  cases tagged with
  | false =>
      cases rest
      exact .silentFault
  | true =>
      obtain ⟨operand, tag⟩ := tagsAre_left tags
      obtain ⟨lhs, _, rest⟩ := bind_eq_ok.mp rest
      obtain ⟨rhs, _, rest⟩ := bind_eq_ok.mp rest
      split at rest
      · exact computes operand _ _ tag rest
      · cases rest
        exact .silentFault

theorem withTensor_transition {compute : TensorValue → Outcome}
    (computes : ∀ operand input,
      vm.state.registerTags operand = .tensorHandle →
      compute input = .ok answer → Transition vm insn pc answer)
    (executed : vm.withTensor insn pc compute = .ok answer) :
    Transition vm insn pc answer := by
  rw [withTensor, bind_eq_ok] at executed
  obtain ⟨tagged, tag, rest⟩ := executed
  cases tagged with
  | false =>
      cases rest
      exact .silentFault
  | true =>
      obtain ⟨operand, _, same⟩ := tagIs_eq_true.mp tag
      obtain ⟨handle, _, rest⟩ := bind_eq_ok.mp rest
      split at rest
      · exact computes operand _ same rest
      · cases rest
        exact .silentFault

theorem shapeFault_transition (executed : vm.shapeFault insn pc = .ok answer) :
    Transition vm insn pc answer := by
  cases executed
  exact .silentFault

theorem executeVector_transition (interns : role insn.opcode = .interns)
    (executed : vm.executeVector host insn pc = .ok answer) :
    Transition vm insn pc answer := by
  refine withTensorPair_transition ?_ executed
  intro operand lhs rhs tagged computed
  split at computed
  · exact shapeFault_transition computed
  · obtain ⟨out, _, rest⟩ := bind_eq_ok.mp computed
    exact finishTensor_transition interns tagged rest

theorem executeTMatMul_transition (interns : role insn.opcode = .interns)
    (executed : vm.executeTMatMul host insn pc = .ok answer) :
    Transition vm insn pc answer := by
  refine withTensorPair_transition ?_ executed
  intro operand lhs rhs tagged computed
  split at computed
  · simp only at computed
    split at computed
    · exact shapeFault_transition computed
    · obtain ⟨out, _, rest⟩ := bind_eq_ok.mp computed
      exact finishTensor_transition interns tagged rest
  · exact shapeFault_transition computed

theorem executeTTenDot_transition (interns : role insn.opcode = .interns)
    (executed : vm.executeTTenDot host insn pc = .ok answer) :
    Transition vm insn pc answer := by
  refine withTensorPair_transition ?_ executed
  intro operand lhs rhs tagged computed
  split at computed
  · exact shapeFault_transition computed
  · obtain ⟨sum, _, rest⟩ := bind_eq_ok.mp computed
    exact finishTensor_transition interns tagged rest

theorem executeTTranspose_transition (interns : role insn.opcode = .interns)
    (executed : vm.executeTTranspose insn pc = .ok answer) :
    Transition vm insn pc answer := by
  refine withTensor_transition ?_ executed
  intro operand input tagged computed
  split at computed
  · simp only at computed
    split at computed
    · exact shapeFault_transition computed
    · obtain ⟨out, _, rest⟩ := bind_eq_ok.mp computed
      exact finishTensor_transition interns tagged rest
  · exact shapeFault_transition computed

theorem executeActivation_transition (interns : role insn.opcode = .interns)
    (executed : vm.executeActivation host insn pc = .ok answer) :
    Transition vm insn pc answer := by
  refine withTensor_transition ?_ executed
  intro operand input tagged computed
  obtain ⟨out, _, rest⟩ := bind_eq_ok.mp computed
  cases out with
  | none => exact shapeFault_transition rest
  | some out => exact finishTensor_transition interns tagged rest

theorem executeChkShape_transition (writes : role insn.opcode = .writes)
    (executed : vm.executeChkShape insn pc = .ok answer) :
    Transition vm insn pc answer := by
  rw [executeChkShape, bind_eq_ok] at executed
  obtain ⟨tagged, _, rest⟩ := executed
  split at rest
  · cases rest
    exact .silentFault
  · obtain ⟨tensor, _, rest⟩ := bind_eq_ok.mp rest
    obtain ⟨shape, _, rest⟩ := bind_eq_ok.mp rest
    split at rest
    · exact .of_finishWrite writes (.computed _) rest
    · cases rest
      exact .silentFault

/-! ## The switch -/

/-- Whatever the dispatch loop does with an instruction is a transition. -/
theorem execute_transition
    (executed : vm.execute host insn pc = .ok answer) :
    Transition vm insn pc answer := by
  unfold execute at executed
  cases opcode : insn.opcode <;> rw [opcode] at executed
  case nop =>
    exact finish_transition (congrArg role opcode) vm.state.flags executed
  case halt =>
    exact executeHalt_transition (congrArg role opcode) executed
  case loadImm =>
    exact executeLoadImm_transition (congrArg role opcode) executed
  case load =>
    exact executeLoad_transition (congrArg role opcode) executed
  case store =>
    exact executeStore_transition (congrArg role opcode) executed
  case add | sub | mul | div | mod | fAdd | fSub | fMul | fDiv | fracAdd |
    fracSub | fracMul | fracDiv =>
    exact executeArithmetic_transition (congrArg role opcode) executed
  case mov | i2F | f2I | i2Frac | frac2I =>
    exact executeMove_transition (congrArg role opcode) executed
  case inc | dec =>
    exact executeBump_transition (congrArg role opcode) executed
  case cmp =>
    exact executeCmp_transition (congrArg role opcode) executed
  case neg =>
    exact executeNeg_transition (congrArg role opcode) executed
  case tNot =>
    exact executeTNot_transition (congrArg role opcode) executed
  case tAnd | tOr | tXor =>
    exact executeTrit_transition (congrArg role opcode) executed
  case less | lessEqual | greater | greaterEqual | equal | notEqual =>
    exact executeCompare_transition (congrArg role opcode) executed
  case push =>
    exact executePush_transition (congrArg role opcode) executed
  case pop =>
    exact executePop_transition (congrArg role opcode) executed
  case jump =>
    exact executeJump_transition (congrArg role opcode) (congrArg (jumpTaken
      _) opcode) executed
  case jumpIfZero | jumpIfNotZero | jumpIfNegative | jumpIfPositive =>
    exact executeJumpIf_transition (congrArg role opcode) (by rwa [opcode])
  case call =>
    exact executeCall_transition (congrArg role opcode) executed
  case ret =>
    exact executeRet_transition (congrArg role opcode) executed
  case axRead =>
    exact executeAxRead_transition (congrArg role opcode) executed
  case axSet =>
    exact executeAxSet_transition (congrArg role opcode) executed
  case axVerify =>
    exact executeAxVerify_transition (congrArg role opcode) executed
  case tVecAdd | tVecMul =>
    exact executeVector_transition (congrArg role opcode) executed
  case tMatMul =>
    exact executeTMatMul_transition (congrArg role opcode) executed
  case tTenDot =>
    exact executeTTenDot_transition (congrArg role opcode) executed
  case tTranspose =>
    exact executeTTranspose_transition (congrArg role opcode) executed
  case tExp | tSqrt | tSiLU | tSoftmax | tRMSNorm | tRoPE =>
    exact executeActivation_transition (congrArg role opcode) executed
  case chkShape =>
    exact executeChkShape_transition (congrArg role opcode) executed
  case weightsLoad =>
    exact executeWeightsLoad_transition (congrArg role opcode) executed
  case setF =>
    exact executeSetF_transition (congrArg role opcode) executed
  case makeOptionSome =>
    exact executeMakeOptionSome_transition (congrArg role opcode) executed
  case makeOptionNone =>
    exact executeMakeOptionNone_transition (congrArg role opcode) executed
  case makeResultOk | makeResultErr =>
    exact executeMakeResult_transition (congrArg role opcode) executed
  case optionIsSome =>
    exact executeOptionIsSome_transition (congrArg role opcode) executed
  case optionUnwrap =>
    exact executeOptionUnwrap_transition (congrArg role opcode) executed
  case resultIsOk =>
    exact executeResultIsOk_transition (congrArg role opcode) executed
  case resultUnwrapOk =>
    exact executeResultUnwrapOk_transition (congrArg role opcode) executed
  case resultUnwrapErr =>
    exact executeResultUnwrapErr_transition (congrArg role opcode) executed
  case makeEnumVariant =>
    exact executeMakeEnumVariant_transition (congrArg role opcode) executed
  case makeEnumVariantPayload =>
    exact executeMakeEnumVariantPayload_transition (congrArg role opcode)
      executed
  case enumIsVariant =>
    exact executeEnumIsVariant_transition (congrArg role opcode) executed
  case enumUnwrapPayload =>
    exact executeEnumUnwrapPayload_transition (congrArg role opcode) executed
  case stackAlloc =>
    exact executeStackAlloc_transition (congrArg role opcode) executed
  case stackFree =>
    exact executeStackFree_transition (congrArg role opcode) executed
  case heapAlloc =>
    exact executeHeapAlloc_transition (congrArg role opcode) executed
  case heapFree =>
    exact executeHeapFree_transition (congrArg role opcode) executed
  case trap | undefined _ =>
    cases executed
    rw [← opcode]
    exact .silentFault

/-! ## One step -/

/-- The next step executes the instruction `insn`. -/
structure Fetches (vm : Interpreter) (insn : Insn) : Prop where
  running : vm.state.halted = false
  accepted : vm.preloadTrap = none
  fetched : vm.program.insns[vm.state.pc]? = some insn

theorem Fetches.unique {other : Insn} (fetches : vm.Fetches insn)
    (again : vm.Fetches other) : insn = other := by
  have fetched := fetches.fetched
  rw [again.fetched] at fetched
  exact (Option.some.inj fetched).symm

theorem currentOpcode_of_fetches (fetches : vm.Fetches insn) :
    vm.currentOpcode = insn.opcode := by
  rw [currentOpcode, fetches.fetched]

/-- The answers of `step`. -/
inductive Stepped (vm : Interpreter) : Expected × Interpreter → Prop where
  | resting (halted : vm.state.halted = true) : Stepped vm (.ok (), vm)
  | rejected {code : Trap} (running : vm.state.halted = false)
      (preload : vm.preloadTrap = some code) :
      Stepped vm (vm.trap code vm.currentOpcode vm.state.pc)
  | overrun (running : vm.state.halted = false)
      (accepted : vm.preloadTrap = none)
      (past : vm.program.insns[vm.state.pc]? = none) :
      Stepped vm (vm.trap .decodeFault .nop vm.state.pc)
  | executed {insn : Insn} {answer : Expected × Interpreter}
      (fetches : vm.Fetches insn)
      (transition : Transition vm.beginInsn insn vm.state.pc answer) :
      Stepped vm answer

theorem step_of_fetches (fetches : vm.Fetches insn) :
    vm.step host = vm.beginInsn.execute host insn vm.state.pc := by
  simp [step, fetches.running, fetches.accepted, fetches.fetched]

/-- `step` rests, raises the verdict of the loader, runs past the last
instruction or executes the one it fetches. -/
theorem step_stepped (stepped : vm.step host = .ok answer) :
    Stepped vm answer := by
  by_cases halted : vm.state.halted = true
  · rw [step, if_pos halted] at stepped
    cases stepped
    exact .resting halted
  · have running : vm.state.halted = false := Bool.eq_false_iff.mpr halted
    rw [step, if_neg halted] at stepped
    split at stepped
    · rename_i code preload
      cases stepped
      exact .rejected running preload
    · rename_i accepted
      split at stepped
      · rename_i past
        cases stepped
        exact .overrun running accepted past
      · rename_i insn fetched
        exact .executed ⟨running, accepted, fetched⟩
          (execute_transition stepped)

end Interpreter

end T81VM.VM
