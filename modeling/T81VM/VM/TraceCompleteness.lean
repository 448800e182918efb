import T81VM.VM.ControlFlow

/-!
# The trace is complete

Every step of a running machine appends one entry to the trace, a trap also
leaves a payload that says the same, and the collection counter is a function
of the trace.
-/

namespace T81VM.VM

open Tisc PartialSystem

/-- The opcode an entry made at `pc` names. -/
def opcodeAt (program : Program) (pc : Nat) : Opcode :=
  match program.insns[pc]? with
  | some insn => insn.opcode
  | none => .nop

/-- The operands of the instruction at `pc`, zeros past the end. -/
def operandsAt (program : Program) (pc : Nat) : Int64 × Int64 × Int64 :=
  match program.insns[pc]? with
  | some insn => (insn.a, insn.b, insn.c)
  | none => (0, 0, 0)

/-- The entry of a fetch past the end of the program. -/
def FetchFault (program : Program) (entry : TraceEntry) : Prop :=
  program.insns.length ≤ entry.pc ∧ entry.opcode = .nop ∧
    entry.trap = some .decodeFault

instance (program : Program) (entry : TraceEntry) :
    Decidable (FetchFault program entry) :=
  inferInstanceAs (Decidable (_ ∧ _))

/-- The entries that are no fetch past the end. -/
def fetchedCount (program : Program) (trace : List TraceEntry) : Nat :=
  trace.countP fun entry => ¬ FetchFault program entry

namespace Interpreter

variable {host : Host} {program : Program} {loaded vm final : Interpreter}
  {insn : Insn} {result : Expected}

/-- A step from `vm` appended `entry`, and a payload of it if it trapped. -/
structure Appends (program : Program) (vm : Interpreter) (result : Expected)
    (final : Interpreter) (entry : TraceEntry) : Prop where
  trace : final.state.trace = vm.state.trace ++ [entry]
  pc : entry.pc = vm.state.pc
  opcode : entry.opcode = opcodeAt program vm.state.pc
  trap : entry.trap = trapOf result
  payload : ∀ code, result = .error code →
    ∃ payload, final.state.lastTrapPayload = some payload ∧
      payload.trap = code ∧ payload.pc = entry.pc ∧
      payload.opcode = entry.opcode ∧
      (payload.a, payload.b, payload.c) = operandsAt program vm.state.pc

/-- What the trace records of the next step, and what it recorded so far. -/
structure TraceComplete (host : Host) (program : Program)
    (vm : Interpreter) : Prop where
  rests : vm.state.halted = true → vm.step host = .ok (.ok (), vm)
  appends : vm.state.halted = false → ∀ result final,
    vm.step host = .ok (result, final) →
      ∃ entry, Appends program vm result final entry
  gcCycles : vm.state.gcCycles = fetchedCount program vm.state.trace / 64

/-- The trace is complete wherever the calls take a step and where they end,
and no call takes anything from it. -/
structure TraceCompleteAlong (host : Host) (program : Program)
    (loaded : Interpreter) (calls : List Call) : Prop where
  steps : Along (call host) (StepsAlong host (TraceComplete host program))
    calls loaded
  grows : Along (call host) (fun request vm => ∀ reply final,
    call host request vm = .ok (reply, final) →
      vm.state.trace <+: final.state.trace) calls loaded
  last : ∀ replies vm, run (call host) calls loaded = .ok (replies, vm) →
    TraceComplete host program vm

/-! ## One step -/

/-- The payload of an instruction that traps. -/
theorem payload_of_transition {pc : Nat} {answer : Expected × Interpreter}
    (transition : Transition vm insn pc answer)
    (fetched : vm.program.insns[pc]? = some insn) {code : Trap}
    (trapped : answer.1 = .error code) :
    ∃ segment detail, answer.2.state.lastTrapPayload = some {
      trap := code, pc, opcode := insn.opcode
      a := insn.a, b := insn.b, c := insn.c, segment, detail } := by
  cases transition with
  | @faulted raised segment detail events =>
      cases trapped
      have operands : (vm.appendLog events).faultOperands insn.opcode pc =
          (insn.a, insn.b, insn.c) := by
        have same : (vm.appendLog events).program = vm.program := rfl
        rw [faultOperands, same, fetched]
        exact if_pos rfl
      refine ⟨segment, detail, ?_⟩
      show some ((vm.appendLog events).trapPayload code insn.opcode pc
        segment detail) = _
      rw [trapPayload, operands]
  | _ => cases trapped

/-- A step of a running machine appends one entry. -/
theorem Accepted.appends (accepted : Accepted program vm)
    (running : vm.state.halted = false)
    (stepped : vm.step host = .ok (result, final)) :
    ∃ entry, Appends program vm result final entry := by
  have same := accepted.program_eq
  cases step_stepped stepped with
  | resting halted =>
      rw [running] at halted
      cases halted
  | rejected _ preload =>
      rw [accepted.preloadTrap_eq] at preload
      cases preload
  | overrun _ _ past =>
      have opcode : opcodeAt program vm.state.pc = .nop := by
        rw [opcodeAt, ← same, past]
      have operands : vm.faultOperands .nop vm.state.pc =
          operandsAt program vm.state.pc := by
        rw [faultOperands, operandsAt, ← same, past]
      refine ⟨vm.traceEntry .nop vm.state.pc (some .decodeFault),
        ⟨rfl, rfl, opcode.symm, rfl, ?_⟩⟩
      intro code trapped
      cases trapped
      refine ⟨_, rfl, rfl, rfl, rfl, ?_⟩
      rw [← operands]
      rfl
  | @executed insn answer fetches transition =>
      have fetched := fetches.fetched
      have opcode : opcodeAt program vm.state.pc = insn.opcode := by
        rw [opcodeAt, ← same, fetched]
      have operands : operandsAt program vm.state.pc =
          (insn.a, insn.b, insn.c) := by
        rw [operandsAt, ← same, fetched]
      obtain ⟨entry, trace, pc, named, trap⟩ := entry_of_transition transition
      refine ⟨entry, ⟨trace, pc, named.trans opcode.symm, trap, ?_⟩⟩
      intro code trapped
      obtain ⟨segment, detail, payload⟩ :=
        payload_of_transition transition fetched trapped
      exact ⟨_, payload, rfl, pc.symm, named.symm, operands.symm⟩

/-- No step takes anything from the trace. -/
theorem trace_isPrefix_of_step (stepped : vm.step host = .ok (result, final)) :
    vm.state.trace <+: final.state.trace := by
  cases step_stepped stepped with
  | resting => exact List.prefix_refl _
  | rejected | overrun => exact List.prefix_append _ _
  | executed fetches transition =>
      obtain ⟨entry, trace, _⟩ := entry_of_transition transition
      have trace : final.state.trace = vm.state.trace ++ [entry] := trace
      rw [trace]
      exact List.prefix_append _ _

theorem setRegister_trace {idx : Int32} {value : Int64} {tag : ValueTag} :
    (vm.setRegister idx value tag).state.trace = vm.state.trace := by
  unfold Interpreter.setRegister
  split <;> rfl

theorem trace_isPrefix_of_call {request : Call} {reply : Reply}
    (driving : request.driving)
    (answered : call host request vm = .ok (reply, final)) :
    vm.state.trace <+: final.state.trace :=
  journal_isPrefix_of_call (fun vm => vm.state.trace)
    (fun _ _ _ stepped => trace_isPrefix_of_step stepped)
    (fun _ _ _ _ => setRegister_trace) driving answered

/-! ## The collection counter -/

/-- The hidden step counter counts the entries that are no fetch past the
end, and the collections are counted off it. -/
structure Counted (program : Program) (vm : Interpreter) : Prop
    extends Accepted program vm where
  steps_eq : vm.steps = fetchedCount program vm.state.trace
  gcCycles_eq : vm.state.gcCycles = vm.steps / 64

theorem counters_of_transition {pc : Nat} {answer : Expected × Interpreter}
    (transition : Transition vm insn pc answer) :
    answer.2.steps = vm.steps ∧
      answer.2.state.gcCycles = vm.state.gcCycles := by
  cases transition <;> exact ⟨rfl, rfl⟩

theorem fetchedCount_append_one {trace : List TraceEntry}
    {entry : TraceEntry} :
    fetchedCount program (trace ++ [entry]) =
      fetchedCount program trace +
        if FetchFault program entry then 0 else 1 := by
  by_cases fault : FetchFault program entry <;>
    simp [fetchedCount, List.countP_append, fault]

theorem Counted.step (counted : Counted program vm)
    (stepped : vm.step host = .ok (result, final)) :
    Counted program final := by
  have accepted := counted.toAccepted.step stepped
  have steps := counted.steps_eq
  have cycles := counted.gcCycles_eq
  have same := counted.program_eq
  cases step_stepped stepped with
  | resting => exact counted
  | rejected _ preload =>
      rw [counted.preloadTrap_eq] at preload
      cases preload
  | overrun running _ past =>
      have fault : FetchFault program
          (vm.traceEntry .nop vm.state.pc (some .decodeFault)) := by
        rw [same] at past
        exact ⟨List.getElem?_eq_none_iff.mp past, rfl, rfl⟩
      refine ⟨accepted, ?_, cycles⟩
      show vm.steps = fetchedCount program (vm.state.trace ++ [_])
      rw [fetchedCount_append_one, if_pos fault]
      exact steps
  | @executed insn answer fetches transition =>
      obtain ⟨entry, trace, pc, _⟩ := entry_of_transition transition
      obtain ⟨counter, collections⟩ := counters_of_transition transition
      have counter : final.steps = vm.steps + 1 := counter
      have collections : final.state.gcCycles =
          if (vm.steps + 1) % 64 = 0 then vm.state.gcCycles + 1
          else vm.state.gcCycles := collections
      have trace : final.state.trace = vm.state.trace ++ [entry] := trace
      have noFault : ¬ FetchFault program entry := by
        rintro ⟨past, _⟩
        have fetched := fetches.fetched
        rw [same] at fetched
        have inside := (List.getElem?_eq_some_iff.mp fetched).1
        rw [pc] at past
        exact Nat.lt_irrefl _ (Nat.lt_of_lt_of_le inside past)
      refine ⟨accepted, ?_, ?_⟩
      · rw [counter, trace, fetchedCount_append_one, if_neg noFault, steps]
      · rw [collections, counter, cycles]
        split <;> omega

theorem Counted.setRegister {idx : Int32} {value : Int64} {tag : ValueTag}
    (counted : Counted program vm) :
    Counted program (vm.setRegister idx value tag) := by
  have accepted : Accepted program (vm.setRegister idx value tag) :=
    counted.toAccepted.setRegister
  refine ⟨accepted, ?_, ?_⟩
  · unfold Interpreter.setRegister
    split <;> exact counted.steps_eq
  · unfold Interpreter.setRegister
    split <;> exact counted.gcCycles_eq

theorem Loads.counted (loads : Loads program vm)
    (accepted : validateProgram program = none) : Counted program vm := by
  have barred := loads.accepted accepted
  obtain ⟨old, loaded⟩ := loads
  obtain ⟨policy, _, rfl⟩ := loadProgram_eq_ok.mp loaded
  exact ⟨barred, rfl, (Nat.zero_div 64).symm⟩

theorem Counted.traceComplete (counted : Counted program vm) :
    TraceComplete host program vm := by
  refine ⟨fun halted => ?_, fun running result final stepped => ?_, ?_⟩
  · rw [Interpreter.step, if_pos halted]
  · exact counted.toAccepted.appends running stepped
  · rw [counted.gcCycles_eq, counted.steps_eq]

/-! ## Whole runs -/

/-- The trace of an accepted program is complete in every run. -/
theorem traceCompleteAlong (accepted : validateProgram program = none)
    (loads : Loads program loaded) {calls : List Call}
    (driving : ∀ call ∈ calls, call.driving) :
    TraceCompleteAlong host program loaded calls := by
  have counted := @run_stepsAlways host _
    (fun _ _ _ counted stepped => counted.step stepped)
    (fun _ _ _ _ counted => counted.setRegister) _ driving _
    (loads.counted accepted)
  refine ⟨?_, ?_, ?_⟩
  · apply counted.1.mono
    intro request state steps
    exact steps.mono fun vm counted => counted.traceComplete
  · apply (along_of_forall driving).mono
    intro request state allowed reply final answered
    exact trace_isPrefix_of_call allowed answered
  · intro replies vm finished
    exact (counted.2 replies vm finished).traceComplete

/-- One instruction, and then a fetch past the end. -/
def fallsOffTheEnd : Program where
  insns := [{ opcode := .nop, a := 0, b := 0, c := 0 }]
  axionPolicyText := []
  fits := by decide

/-- The trace is complete when the program falls off its end. -/
theorem traceCompleteAlong_fallsOffTheEnd :
    TraceCompleteAlong strictHost fallsOffTheEnd
      (freshlyLoaded fallsOffTheEnd) [.runToHalt 5, .step] :=
  traceCompleteAlong rfl (loads_freshlyLoaded rfl)
    (by simp [Call.driving])

end Interpreter

end T81VM.VM
