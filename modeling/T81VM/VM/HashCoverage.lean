import T81VM.VM.HashWords
import T81VM.VM.Machine
import T81VM.VM.WriteDeltas

/-!
# What the state hash covers

The hash leaves out the register tags, the flags, the pools and the write on
record.  States that agree in these and in the words of the hash have the
same future; states that agree in the words alone need not.
-/

namespace T81VM.VM

open Tisc PartialSystem

namespace Interpreter

variable {host : Host} {program : Program}
  {vm final left right leftStart rightStart : Interpreter} {insn : Insn}
  {pc : Nat} {result : Expected}

/-- The write that was recorded since the last fetch. -/
def pendingWrite (vm : Interpreter) :
    Option Nat × Option Int64 × Option ValueTag :=
  (vm.currentWriteReg, vm.currentWriteValue, vm.currentWriteTag)

/-- The members that steer the guest and are in no word of the hash. -/
structure SameUnhashed (left right : Interpreter) : Prop where
  registerTags : left.state.registerTags = right.state.registerTags
  flags : left.state.flags = right.state.flags
  optionPool : left.state.optionPool = right.state.optionPool
  resultPool : left.state.resultPool = right.state.resultPool
  enumPool : left.state.enumPool = right.state.enumPool
  tensorPool : left.state.tensorPool = right.state.tensorPool
  /-- A fetch clears the write on record; a fetch past the end shows it. -/
  write : left.state.halted = false →
    left.program.insns[left.state.pc]? = none →
      left.pendingWrite = right.pendingWrite

/-- Two objects went on from two others with the same trace suffix, and have
the same registers. -/
structure SameOutput (leftStart rightStart left right : Interpreter) :
    Prop where
  suffix : ∃ suffix, left.state.trace = leftStart.state.trace ++ suffix ∧
    right.state.trace = rightStart.state.trace ++ suffix
  registers : left.state.registers = right.state.registers

/-- Whatever the guest is made to do, both objects answer it alike, with the
same trace suffix and the same registers. -/
def SameFuture (host : Host) (left right : Interpreter) : Prop :=
  ∀ calls, (∀ call ∈ calls, Call.guest call) →
    Agree (SameOutput left right) (run (call host) calls left)
      (run (call host) calls right)

/-! ## The write of an entry -/

/-- The instruction records the register it assigns. -/
def records (opcode : Opcode) : Bool :=
  assigns opcode && role opcode != .bumps && role opcode != .pops

/-- The write that an executed instruction leaves on record, by what it left
in the register file. -/
def recordedWrite (insn : Insn) (result : Expected)
    (cells : Fin 243 → Int64 × ValueTag) :
    Option Nat × Option Int64 × Option ValueTag :=
  match result, records insn.opcode, registerIndex insn.a with
  | .ok _, true, .ok reg => (some reg, some (cells reg).1, some (cells reg).2)
  | _, _, _ => (none, none, none)

/-- The entry of an instruction shows the write on record. -/
theorem trace_of_transition {answer : Expected × Interpreter}
    (transition : Transition vm insn pc answer) :
    answer.2.state.trace = vm.state.trace ++
      [answer.2.traceEntry insn.opcode pc (trapOf answer.1)] := by
  cases transition <;> rfl

theorem pendingWrite_of_carriesNothing {opcode : Opcode} {trap : Option Trap}
    (nothing : (vm.traceEntry opcode pc trap).CarriesNothing) :
    vm.pendingWrite = (none, none, none) := by
  obtain ⟨reg, value, tag⟩ := nothing
  exact Prod.ext reg (Prod.ext value tag)

theorem pendingWrite_of_transition (clean : vm.Unwritten)
    (transition : Transition vm insn pc (result, final)) :
    final.pendingWrite = recordedWrite insn result final.cells := by
  have own := trace_of_transition transition
  have same : ∀ {entry : TraceEntry},
      final.state.trace = vm.state.trace ++ [entry] →
        entry = final.traceEntry insn.opcode pc (trapOf result) := by
    intro entry trace
    exact List.singleton_inj.mp (List.append_cancel_left (trace.symm.trans own))
  cases Noted.of_transition clean transition with
  | trapped trace _ nothing =>
      rw [same trace] at nothing
      exact pendingWrite_of_carriesNothing nothing
  | unchanged reads trace _ nothing =>
      rw [same trace] at nothing
      have silent : records insn.opcode = false := by simp [records, reads]
      simp only [pendingWrite_of_carriesNothing nothing, recordedWrite, silent]
  | recorded assigned notBumps notPops index trace _ carries set =>
      rw [same trace] at carries
      obtain ⟨reg, value, tag⟩ := carries
      have recording : records insn.opcode = true := by
        simp [records, assigned, notBumps, notPops]
      simp only [recordedWrite, recording, index, set, Function.update_self]
      exact Prod.ext reg (Prod.ext value tag)
  | unrecorded bumpsOrPops _ trace _ nothing =>
      rw [same trace] at nothing
      have silent : records insn.opcode = false := by
        rcases bumpsOrPops with bumps | ⟨pops, _⟩
        · simp [records, bumps]
        · simp [records, pops]
      simp only [pendingWrite_of_carriesNothing nothing, recordedWrite, silent]

/-! ## Steps in parallel -/

/-- What a step of a running machine appends and leaves on record. -/
theorem step_shows (accepted : vm.preloadTrap = none)
    (running : vm.state.halted = false)
    (stepped : vm.step host = .ok (result, final)) :
    final.state.trace = vm.state.trace ++
        [final.traceEntry vm.currentOpcode vm.state.pc (trapOf result)] ∧
      (vm.program.insns[vm.state.pc]? = none →
        final.pendingWrite = vm.pendingWrite) ∧
      ∀ insn, vm.program.insns[vm.state.pc]? = some insn →
        final.pendingWrite = recordedWrite insn result final.cells := by
  cases step_stepped stepped with
  | resting halted =>
      rw [running] at halted
      cases halted
  | rejected _ preload =>
      rw [accepted] at preload
      cases preload
  | overrun _ _ past =>
      rw [currentOpcode, past]
      refine ⟨rfl, fun _ => rfl, fun insn fetched => ?_⟩
      cases fetched
  | executed fetches transition =>
      have own := trace_of_transition transition
      have written := pendingWrite_of_transition ⟨rfl, rfl, rfl⟩ transition
      rw [currentOpcode_of_fetches fetches, fetches.fetched]
      refine ⟨own, fun missing => ?_, fun insn fetched => ?_⟩
      · cases missing
      · cases fetched
        exact written

/-- Two accepted objects with the same machine that went on from two others
with the same trace suffix. -/
structure Alongside (leftStart rightStart left right : Interpreter) :
    Prop where
  same : SameMachine left right
  accepted : left.preloadTrap = none
  write : left.state.halted = false →
    left.program.insns[left.state.pc]? = none →
      left.pendingWrite = right.pendingWrite
  suffix : ∃ suffix, left.state.trace = leftStart.state.trace ++ suffix ∧
    right.state.trace = rightStart.state.trace ++ suffix

theorem Alongside.sameOutput (along : Alongside leftStart rightStart left right) :
    SameOutput leftStart rightStart left right :=
  ⟨along.suffix, congrArg Machine.registers along.same.machine_eq⟩

theorem SameMachine.cells_eq (same : SameMachine left right) :
    left.cells = right.cells := by
  obtain ⟨record, rfl⟩ := same.exists_record
  rfl

/-- A step of both keeps them alongside. -/
theorem Alongside.step (along : Alongside leftStart rightStart left right) :
    Agree (Alongside leftStart rightStart) (left.step host)
      (right.step host) := by
  apply (step_alike along.same).agree.strengthen
  intro result leftFinal rightFinal leftStepped rightStepped same
  have halts : left.state.halted = right.state.halted :=
    congrArg Machine.halted along.same.machine_eq
  cases leftHalted : left.state.halted with
  | true =>
      rw [leftHalted] at halts
      rw [Interpreter.step, if_pos leftHalted] at leftStepped
      rw [Interpreter.step, if_pos halts.symm] at rightStepped
      cases leftStepped
      cases rightStepped
      exact along
  | false =>
      rw [leftHalted] at halts
      have accepted := along.accepted
      have rightAccepted : right.preloadTrap = none :=
        along.same.preloadTrap_eq.symm.trans accepted
      obtain ⟨leftTrace, leftPast, leftFetched⟩ :=
        step_shows accepted leftHalted leftStepped
      obtain ⟨rightTrace, rightPast, rightFetched⟩ :=
        step_shows rightAccepted halts.symm rightStepped
      rw [← along.same.program_eq] at rightPast rightFetched
      have pcs : left.state.pc = right.state.pc :=
        congrArg Machine.pc along.same.machine_eq
      have opcodes : left.currentOpcode = right.currentOpcode := by
        rw [currentOpcode, currentOpcode, along.same.program_eq, pcs]
      have writes : leftFinal.pendingWrite = rightFinal.pendingWrite := by
        rw [← pcs] at rightPast rightFetched
        cases fetched : left.program.insns[left.state.pc]? with
        | none =>
            rw [leftPast fetched, rightPast fetched]
            exact along.write leftHalted fetched
        | some insn =>
            rw [leftFetched insn fetched, rightFetched insn fetched,
              same.cells_eq]
      have entries :
          leftFinal.traceEntry left.currentOpcode left.state.pc
              (trapOf result) =
            rightFinal.traceEntry right.currentOpcode right.state.pc
              (trapOf result) := by
        simp only [pendingWrite, Prod.mk.injEq] at writes
        obtain ⟨reg, value, tag⟩ := writes
        rw [traceEntry, traceEntry, reg, value, tag, opcodes, pcs]
      obtain ⟨suffix, leftSuffix, rightSuffix⟩ := along.suffix
      refine ⟨same, (step_stepped leftStepped).preloadTrap_eq accepted,
        fun _ _ => writes, suffix ++ [leftFinal.traceEntry
          left.currentOpcode left.state.pc (trapOf result)], ?_, ?_⟩
      · rw [leftTrace, leftSuffix, List.append_assoc]
      · rw [rightTrace, rightSuffix, ← entries, List.append_assoc]

/-- So does a write of the host to both. -/
theorem Alongside.setRegister
    (along : Alongside leftStart rightStart left right) (idx : Int32)
    (value : Int64) (tag : ValueTag) :
    Alongside leftStart rightStart (left.setRegister idx value tag)
      (right.setRegister idx value tag) := by
  unfold Interpreter.setRegister
  by_cases inRange : 0 ≤ idx.toInt ∧ idx.toInt.toNat < 243
  · rw [dif_pos inRange, dif_pos inRange]
    obtain ⟨record, rfl⟩ := along.same.exists_record
    exact ⟨⟨rfl, rfl, rfl⟩, along.accepted, fun _ _ => rfl, along.suffix⟩
  · rw [dif_neg inRange, dif_neg inRange]
    exact along

/-- Objects alongside each other have the same future. -/
theorem Alongside.sameFuture (along : Alongside left right left right) :
    SameFuture host left right := by
  intro calls guest
  have driving : ∀ call ∈ calls, Call.driving call :=
    fun request member => (guest request member).driving
  have agree : Agree (Alongside left right) (run (call host) calls left)
      (run (call host) calls right) := by
    apply run_agree ?_ driving along
    intro request first second allowed along
    apply call_agree
      (fun one other _ along => Alongside.step along)
      (fun one other along =>
        congrArg Machine.halted along.same.machine_eq)
      (fun one other idx value tag along => along.setRegister idx value tag)
      allowed (stepsAlong_of_forall (fun _ => trivial) request first) along
  exact agree.mono fun _ _ along => along.sameOutput

/-! ## Coverage -/

/-- Equal words and equal unhashed members are equal machines. -/
theorem sameMachine_of_stateWords (leftRetraced : Retraced program left)
    (rightRetraced : Retraced program right)
    (words : stateWords left.state = stateWords right.state)
    (unhashed : SameUnhashed left right) : SameMachine left right := by
  have shown := sameWords_of_stateWords leftRetraced rightRetraced words
  have hidden := shown.hidden_eq leftRetraced rightRetraced
  simp only [Interpreter.hidden, Hidden.mk.injEq] at hidden
  obtain ⟨sp, heapPtr, stackFrames, heapFrames, callStack⟩ := hidden
  have policies : left.state.policy = right.state.policy :=
    Except.ok.inj (leftRetraced.policy_eq.symm.trans rightRetraced.policy_eq)
  refine ⟨leftRetraced.program_eq.trans rightRetraced.program_eq.symm,
    leftRetraced.preloadTrap_eq.trans rightRetraced.preloadTrap_eq.symm, ?_⟩
  simp only [machine, Machine.mk.injEq]
  exact ⟨shown.pc, shown.halted, shown.registers, unhashed.registerTags,
    shown.memory, unhashed.flags,
    leftRetraced.layout_eq.trans rightRetraced.layout_eq.symm, sp, heapPtr,
    stackFrames, heapFrames, unhashed.optionPool, unhashed.resultPool,
    unhashed.enumPool, unhashed.tensorPool,
    leftRetraced.shapePool_eq.trans rightRetraced.shapePool_eq.symm,
    callStack, policies⟩

/-- The state hash covers everything but the unhashed members: states of an
accepted program that feed it the same words and agree in these have the same
future. -/
theorem sameFuture_of_stateWords (accepted : validateProgram program = none)
    (leftReached : Reachable host program left)
    (rightReached : Reachable host program right)
    (words : stateWords left.state = stateWords right.state)
    (unhashed : SameUnhashed left right) : SameFuture host left right := by
  have leftRetraced := leftReached.retraced accepted
  have rightRetraced := rightReached.retraced accepted
  have same := sameMachine_of_stateWords leftRetraced rightRetraced words
    unhashed
  apply Alongside.sameFuture
  exact ⟨same, leftRetraced.preloadTrap_eq, unhashed.write,
    [], by rw [List.append_nil], by rw [List.append_nil]⟩

/-- A program whose first instruction tests an option. -/
def inspectOption : Program where
  insns := [{ opcode := .optionIsSome, a := 0, b := 1, c := 0 }]
  axionPolicyText := []
  fits := by decide

/-- A host that writes a zero over a zero leaves a write on record, which the
next fetch clears. -/
theorem sameFuture_of_stateWords_inspectOption :
    ∃ replies vm, run (call strictHost) [.setRegister 5 0 .int]
        (freshlyLoaded inspectOption) = .ok (replies, vm) ∧
      vm.pendingWrite ≠ (freshlyLoaded inspectOption).pendingWrite ∧
      SameFuture strictHost vm (freshlyLoaded inspectOption) := by
  have loads : Loads inspectOption (freshlyLoaded inspectOption) :=
    loads_freshlyLoaded rfl
  have finished : run (call strictHost) [.setRegister 5 0 .int]
      (freshlyLoaded inspectOption) = .ok (_, _) := rfl
  have written : Reachable strictHost inspectOption _ :=
    ⟨_, _, _, loads, by simp [Call.driving], finished⟩
  have fresh : Reachable strictHost inspectOption
      (freshlyLoaded inspectOption) :=
    ⟨_, [], _, loads, by simp, rfl⟩
  refine ⟨_, _, finished, by decide, ?_⟩
  apply sameFuture_of_stateWords rfl written fresh
  · have registers : Function.update
        (freshlyLoaded inspectOption).state.registers 5 0 =
          (freshlyLoaded inspectOption).state.registers :=
      Function.update_eq_self _ _
    exact congrArg
      (fun registers => stateWords
        { (freshlyLoaded inspectOption).state with registers }) registers
  · refine ⟨Function.update_eq_self _ _, rfl, rfl, rfl, rfl, rfl, ?_⟩
    intro running past
    cases past

/-- Two hosts write the same value to register 1 under different tags.  The
words are the same, but one object traps on the handle and the other on the
tag. -/
theorem not_sameFuture_inspectOption :
    ¬ ∀ (host : Host) (program : Program) (left right : Interpreter),
      validateProgram program = none →
      Reachable host program left → Reachable host program right →
      stateWords left.state = stateWords right.state →
        SameFuture host left right := by
  intro covers
  have loads : Loads inspectOption (freshlyLoaded inspectOption) :=
    loads_freshlyLoaded rfl
  have left : Reachable strictHost inspectOption _ :=
    ⟨_, [.setRegister 1 0 .optionHandle], _, loads, by simp [Call.driving], rfl⟩
  have right : Reachable strictHost inspectOption _ :=
    ⟨_, [.setRegister 1 0 .int], _, loads, by simp [Call.driving], rfl⟩
  have future := covers strictHost inspectOption _ _ rfl left right rfl
  have agree := future [.step] (by simp [Call.guest])
  have replies : [Reply.result (.error .decodeFault)] =
      [Reply.result (.error .typeFault)] := agree.1
  exact absurd replies (by decide)

end Interpreter

end T81VM.VM
