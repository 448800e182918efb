import T81VM.VM.ControlFlow
import T81VM.VM.TrapDetails
import T81VM.VM.TrapRecord

/-!
# Retracing a run

The pointers, the frames and the call stack are not part of the state hash.
They need not be: replaying the trace against the program rebuilds them, and
all that the replay reads of an entry is its program counter and whether it
trapped.
-/

namespace T81VM.VM

open Tisc PartialSystem

/-- The members that a replay of the trace rebuilds. -/
structure Hidden where
  sp : Nat
  heapPtr : Nat
  stackFrames : List (Nat × Nat)
  heapFrames : List (Nat × Nat)
  callStack : List Nat

namespace Hidden

/-- What an instruction at `pc` that does not trap does to them. -/
def execute (hidden : Hidden) (insn : Insn) (pc : Nat) : Hidden :=
  match role insn.opcode with
  | .pushes => { hidden with sp := hidden.sp - 1 }
  | .pops => { hidden with sp := hidden.sp + 1 }
  | .calls => { hidden with callStack := (pc + 1) :: hidden.callStack }
  | .returns => { hidden with callStack := hidden.callStack.tail }
  | .stackAllocates =>
      { hidden with
        sp := hidden.sp - toSize insn.b
        stackFrames := (hidden.sp - toSize insn.b, toSize insn.b)
          :: hidden.stackFrames }
  | .stackFrees =>
      { hidden with
        sp := wrapSize (hidden.sp + (hidden.stackFrames.headD (0, 0)).2)
        stackFrames := hidden.stackFrames.tail }
  | .heapAllocates =>
      { hidden with
        heapPtr := wrapSize (hidden.heapPtr + toSize insn.b)
        heapFrames := (hidden.heapPtr, toSize insn.b) :: hidden.heapFrames }
  | .heapFrees =>
      { hidden with
        heapPtr := (hidden.heapFrames.headD (0, 0)).1
        heapFrames := hidden.heapFrames.tail }
  | .idles | .halts | .writes | .interns | .bumps | .stores | .jumps
  | .faults => hidden

/-- What an entry tells of a step: where it was, and whether it trapped. -/
def after (program : Program) (hidden : Hidden) (mark : Nat × Bool) :
    Hidden :=
  match mark.2, program.insns[mark.1]? with
  | false, some insn => hidden.execute insn mark.1
  | false, none | true, _ => hidden

end Hidden

/-- What the replay reads of an entry. -/
def TraceEntry.mark (entry : TraceEntry) : Nat × Bool :=
  (entry.pc, entry.trap.isSome)

/-- The members of a loaded program. -/
def initialHidden (program : Program) : Hidden where
  sp := (initialLayout program.insns.length).stack.limit
  heapPtr := (initialLayout program.insns.length).heap.start
  stackFrames := []
  heapFrames := []
  callStack := []

/-- Replay the marks of a trace. -/
def retrace (program : Program) (marks : List (Nat × Bool)) : Hidden :=
  marks.foldl (Hidden.after program) (initialHidden program)

namespace Interpreter

variable {host : Host} {program : Program} {vm final : Interpreter}
  {insn : Insn} {pc : Nat} {result : Expected}

def hidden (vm : Interpreter) : Hidden where
  sp := vm.state.sp
  heapPtr := vm.state.heapPtr
  stackFrames := vm.state.stackFrames
  heapFrames := vm.state.heapFrames
  callStack := vm.callStack

/-! ## One step -/

theorem hidden_of_trap {code : Trap}
    (transition : Transition vm insn pc (.error code, final)) :
    final.hidden = vm.hidden := by
  cases transition with
  | faulted => rfl

theorem hidden_of_success {success : Unit}
    (transition : Transition vm insn pc (.ok success, final)) :
    final.hidden = vm.hidden.execute insn pc := by
  cases transition with
  | pushed same | popped same | called same | stackAllocated same
  | heapAllocated same =>
      rw [Hidden.execute, same]
      rfl
  | returned same frames | stackFreed same _ frames | heapFreed same _ frames =>
      rw [Hidden.execute, same, hidden, hidden, frames]
      rfl
  | idled same | halted same | written same | madeOption same
  | madeResult same | madeEnum same | madeTensor same | bumped same
  | stored same | jumped same | passed same =>
      rw [Hidden.execute, same]
      rfl

theorem shapePool_of_transition {answer : Expected × Interpreter}
    (transition : Transition vm insn pc answer) :
    answer.2.state.shapePool = vm.state.shapePool := by
  cases transition <;> rfl

theorem Stepped.shapePool_eq {answer : Expected × Interpreter}
    (stepped : Stepped vm answer) :
    answer.2.state.shapePool = vm.state.shapePool := by
  cases stepped with
  | resting | rejected | overrun => rfl
  | executed fetches transition =>
      have kept := shapePool_of_transition transition
      exact kept

/-- The mark of a step says what it did to the hidden members. -/
theorem Accepted.hidden_step (accepted : Accepted program vm)
    (running : vm.state.halted = false)
    (stepped : vm.step host = .ok (result, final)) :
    final.hidden =
      vm.hidden.after program (vm.state.pc, (trapOf result).isSome) := by
  cases step_stepped stepped with
  | resting halted =>
      rw [running] at halted
      cases halted
  | rejected _ preload =>
      rw [accepted.preloadTrap_eq] at preload
      cases preload
  | overrun => rfl
  | @executed insn _ fetches transition =>
      have fetched := fetches.fetched
      rw [accepted.program_eq] at fetched
      cases result with
      | error code =>
          have kept := hidden_of_trap transition
          exact kept
      | ok success =>
          have executed := hidden_of_success transition
          rw [executed, Hidden.after]
          simp only [trapOf, Option.isSome_none, fetched]
          rfl

/-! ## The invariant -/

/-- The trace rebuilds the hidden members, and every word of the machine
that the hash is fed with tells what it stands for. -/
structure Retraced (program : Program) (vm : Interpreter) : Prop
    extends Controlled program vm where
  real : vm.TrapsReal
  marks : ∀ entry ∈ vm.state.trace,
    entry.pc ≤ program.insns.length ∧ entry.trap ≠ some .none
  hidden_eq :
    vm.hidden = retrace program (vm.state.trace.map TraceEntry.mark)
  detail : ∀ payload, vm.state.lastTrapPayload = some payload →
    payload.detail.length ≤ 25
  shapePool_eq : vm.state.shapePool = []
  policy_eq : parsePolicy program.axionPolicyText = .ok vm.state.policy

theorem Loads.retraced (loads : Loads program vm)
    (accepted : validateProgram program = none) : Retraced program vm := by
  have controlled := loads.controlled accepted
  have real := loads.trapsReal
  obtain ⟨old, loaded⟩ := loads
  obtain ⟨policy, parsed, rfl⟩ := loadProgram_eq_ok.mp loaded
  refine ⟨controlled, real, ?_, rfl, ?_, rfl, parsed⟩
  · intro entry member
    cases member
  · intro payload recorded
    cases recorded

/-- A write of the host changes neither the trace nor what it rebuilds. -/
theorem Retraced.setRegister {idx : Int32} {value : Int64} {tag : ValueTag}
    (retraced : Retraced program vm) :
    Retraced program (vm.setRegister idx value tag) := by
  have accepted : Accepted program (vm.setRegister idx value tag) :=
    retraced.toAccepted.setRegister
  unfold Interpreter.setRegister at accepted ⊢
  by_cases inRange : 0 ≤ idx.toInt ∧ idx.toInt.toNat < 243
  · rw [dif_pos inRange] at accepted ⊢
    exact ⟨⟨accepted, retraced.pc_le, retraced.frames, retraced.sites⟩,
      ⟨retraced.real.preload, retraced.real.payload⟩, retraced.marks,
      retraced.hidden_eq, retraced.detail, retraced.shapePool_eq,
      retraced.policy_eq⟩
  · rw [dif_neg inRange]
    exact retraced

/-- The detail on record stays short. -/
theorem detail_step
    (short : ∀ payload, vm.state.lastTrapPayload = some payload →
      payload.detail.length ≤ 25)
    (stepped : vm.step host = .ok (result, final)) {payload : TrapPayload}
    (recorded : final.state.lastTrapPayload = some payload) :
    payload.detail.length ≤ 25 := by
  cases step_trapRecord stepped with
  | rests => exact short payload recorded
  | traps =>
      obtain ⟨quoting, same, bounded⟩ := step_quotes stepped
      rw [same] at recorded
      cases recorded
      exact bounded
  | halts _ _ _ cleared =>
      rw [cleared] at recorded
      cases recorded
  | goesOn _ _ _ kept =>
      rw [kept] at recorded
      exact short payload recorded

theorem Retraced.step (retraced : Retraced program vm)
    (stepped : vm.step host = .ok (result, final)) :
    Retraced program final := by
  have answer := step_stepped stepped
  have shapes := answer.shapePool_eq
  have policy := answer.policy_eq
  obtain ⟨controlled, rests | ⟨entry, trace, pc, trap, _⟩⟩ :=
    retraced.toControlled.step stepped
  · obtain ⟨_, rfl⟩ := rests
    exact retraced
  · have running : vm.state.halted = false := by
      apply Bool.eq_false_iff.mpr
      intro halted
      rw [Interpreter.step, if_pos halted] at stepped
      cases stepped
      exact absurd (congrArg List.length trace) (by simp)
    refine ⟨controlled, retraced.real.step stepped, ?_, ?_, ?_,
      shapes.trans retraced.shapePool_eq, ?_⟩
    · intro marked member
      rw [trace] at member
      rcases List.mem_append.mp member with old | new
      · exact retraced.marks marked old
      · rw [List.mem_singleton] at new
        subst new
        refine ⟨pc ▸ retraced.pc_le, ?_⟩
        cases result with
        | ok success => simp [trap, trapOf]
        | error code =>
            have real := retraced.real.code_ne_none stepped
            simpa [trap, trapOf] using real
    · have moved := retraced.toAccepted.hidden_step running stepped
      have mark : entry.mark = (vm.state.pc, (trapOf result).isSome) := by
        rw [TraceEntry.mark, pc, trap]
      rw [moved, retraced.hidden_eq, retrace, retrace, trace, List.map_append,
        List.foldl_append, List.map_singleton, mark]
      rfl
    · intro payload recorded
      exact detail_step retraced.detail stepped recorded
    · exact retraced.policy_eq.trans (congrArg Except.ok policy.symm)

theorem Reachable.retraced (reached : Reachable host program vm)
    (accepted : validateProgram program = none) : Retraced program vm :=
  reached.invariant (fun _ loads => loads.retraced accepted)
    (fun _ _ _ retraced stepped => retraced.step stepped)
    (fun _ _ _ _ retraced => retraced.setRegister)

end Interpreter

end T81VM.VM
