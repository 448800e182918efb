import T81VM.VM.Installed

/-!
# Storage

The pools, the frame stacks and the call stack are the parts of an object
that grow without a bound of their own.  A step pays for every entry with an
entry of the trace, and a call for every entry of the trace with a step it was
granted.
-/

namespace T81VM.VM

open Tisc PartialSystem

/-- The steps a call may take. -/
def Call.granted : Call → Nat
  | .step => 1
  | .runToHalt maxSteps => maxSteps
  | .loadProgram _ | .setRegister .. => 0

namespace Interpreter

/-- The entries that instructions add. -/
def storage (vm : Interpreter) : Nat :=
  vm.state.optionPool.length + vm.state.resultPool.length
    + vm.state.enumPool.length + vm.state.tensorPool.length
    + vm.state.shapePool.length + vm.callStack.length
    + vm.state.stackFrames.length + vm.state.heapFrames.length

variable {host : Host} {program : Program} {vm final : Interpreter}
  {insn : Insn} {pc : Nat} {result : Expected}

/-- Nothing is stored and nothing is logged without a trace entry. -/
structure StoragePaid (vm : Interpreter) : Prop where
  storage : vm.storage ≤ vm.state.trace.length
  log : vm.state.axionLog.length ≤ vm.state.trace.length

theorem storage_of_transition {answer : Expected × Interpreter}
    (transition : Transition vm insn pc answer) :
    answer.2.storage ≤ vm.storage + 1 := by
  cases transition with
  | madeOption | madeResult | madeEnum | madeTensor =>
      simp only [storage, wrote, finished, traceOk, advance, setFlags,
        writeRegister, recordWrite, assignRegister, List.length_append,
        List.length_singleton]
      omega
  | called =>
      simp only [storage, movedTo, traceOk, List.length_cons]
      omega
  | @returned _ _ _ frames =>
      have stack : vm.callStack.length = _ := congrArg List.length frames
      simp only [List.length_cons] at stack
      simp only [storage, movedTo, traceOk]
      omega
  | stackAllocated | heapAllocated =>
      simp only [storage, appendLog, finished, traceOk, advance,
        writeRegister, recordWrite, assignRegister, List.length_cons]
      omega
  | stackFreed _ _ frames | heapFreed _ _ frames =>
      have stack := congrArg List.length frames
      simp only [List.length_cons] at stack
      simp only [storage, appendLog, finished, traceOk, advance]
      omega
  | _ => exact Nat.le_succ _

/-- An instruction appends one trace entry. -/
theorem traceLength_of_transition {answer : Expected × Interpreter}
    (transition : Transition vm insn pc answer) :
    answer.2.state.trace.length = vm.state.trace.length + 1 := by
  cases transition <;> exact List.length_append

/-- It logs one event at most. -/
theorem logLength_of_transition {answer : Expected × Interpreter}
    (transition : Transition vm insn pc answer) :
    answer.2.state.axionLog.length ≤ vm.state.axionLog.length + 1 := by
  have grown : ∀ events : List AxionEvent, events.length ≤ 1 →
      (vm.state.axionLog ++ events).length ≤
        vm.state.axionLog.length + 1 := by
    intro events few
    rw [List.length_append]
    exact Nat.add_le_add_left few _
  cases transition with
  | faulted few | idled _ few | written _ _ _ few | stored _ _ _ few
  | stackAllocated _ _ _ _ _ few | stackFreed _ _ _ _ _ few
  | heapAllocated _ _ _ _ few | heapFreed _ _ _ _ _ few =>
      exact grown _ few
  | _ => exact Nat.le_succ _

theorem storage_beginInsn : vm.beginInsn.storage = vm.storage := by
  simp only [storage, beginInsn]

/-- A step that does anything appends one trace entry, and with it one entry
of the storage and one event at most. -/
theorem step_pays (stepped : vm.step host = .ok (result, final)) :
    final = vm ∨
      final.state.trace.length = vm.state.trace.length + 1 ∧
        final.storage ≤ vm.storage + 1 ∧
        final.state.axionLog.length ≤ vm.state.axionLog.length + 1 := by
  cases step_stepped stepped with
  | resting => exact .inl rfl
  | rejected | overrun =>
      exact .inr ⟨List.length_append, Nat.le_succ _, Nat.le_succ _⟩
  | executed fetches transition =>
      have stored := storage_of_transition transition
      rw [storage_beginInsn] at stored
      exact .inr ⟨traceLength_of_transition transition, stored,
        logLength_of_transition transition⟩

/-- A step pays for what it stores and logs with its trace entry. -/
theorem StoragePaid.step (paid : vm.StoragePaid)
    (stepped : vm.step host = .ok (result, final)) : final.StoragePaid := by
  rcases step_pays stepped with same | ⟨recorded, stored, logged⟩
  · rw [same]
    exact paid
  · have before := paid.storage
    have earlier := paid.log
    constructor <;> omega

theorem StoragePaid.setRegister {idx : Int32} {value : Int64}
    {tag : ValueTag} (paid : vm.StoragePaid) :
    (vm.setRegister idx value tag).StoragePaid := by
  unfold Interpreter.setRegister
  split
  · exact ⟨paid.storage, paid.log⟩
  · exact paid

theorem Loads.storagePaid (loads : Loads program vm) : vm.StoragePaid := by
  have calls := loads.callStack_eq
  obtain ⟨policy, same⟩ := loads.state_eq
  constructor <;> simp [storage, calls, same, initialState]

/-! ## Steps granted -/

theorem traceLength_step (stepped : vm.step host = .ok (result, final)) :
    final.state.trace.length ≤ vm.state.trace.length + 1 := by
  rcases step_pays stepped with same | ⟨recorded, _, _⟩
  · rw [same]
    exact Nat.le_succ _
  · exact Nat.le_of_eq recorded

theorem traceLength_runToHalt {maxSteps : Nat}
    (finished : runToHalt host maxSteps vm = .ok (result, final)) :
    final.state.trace.length ≤ vm.state.trace.length + maxSteps := by
  induction maxSteps generalizing vm with
  | zero =>
      cases finished
      exact Nat.le_refl _
  | succ maxSteps induction =>
      obtain ⟨first, middle, stepped, rest⟩ :=
        runToHalt_succ_eq_ok.mp finished
      have here := traceLength_step stepped
      rcases rest with ⟨_, _, same⟩ | ⟨_, _, same⟩ | ⟨_, _, later⟩
      · cases same
        omega
      · cases same
        omega
      · have there := induction later
        omega

theorem traceLength_call {request : Call} {reply : Reply}
    (driving : request.driving)
    (answered : call host request vm = .ok (reply, final)) :
    final.state.trace.length ≤ vm.state.trace.length + request.granted := by
  cases request with
  | loadProgram => exact driving.elim
  | step =>
      obtain ⟨result, stepped, _⟩ := call_step_eq_ok.mp answered
      exact traceLength_step stepped
  | runToHalt maxSteps =>
      obtain ⟨result, finished, _⟩ := call_runToHalt_eq_ok.mp answered
      exact traceLength_runToHalt finished
  | setRegister idx value tag =>
      cases answered
      unfold setRegister
      split <;> exact Nat.le_refl _

theorem traceLength_run {calls : List Call} {replies : List Reply}
    (driving : ∀ call ∈ calls, call.driving)
    (finished : run (call host) calls vm = .ok (replies, final)) :
    final.state.trace.length ≤
      vm.state.trace.length + (calls.map Call.granted).sum := by
  induction calls generalizing vm replies with
  | nil =>
      cases finished
      exact Nat.le_refl _
  | cons request calls induction =>
      obtain ⟨reply, middle, rest, answered, later, _⟩ :=
        run_cons_eq_ok.mp finished
      have here := traceLength_call (driving request List.mem_cons_self)
        answered
      have there := induction
        (fun call member => driving call (List.mem_cons_of_mem _ member))
        later
      rw [List.map_cons, List.sum_cons]
      omega

/-- What a run stores and logs is at most what it records, and what it
records is at most what it was granted. -/
structure StorageBounded (granted : Nat) (vm : Interpreter) : Prop where
  storage : vm.storage ≤ vm.state.trace.length
  log : vm.state.axionLog.length ≤ vm.state.trace.length
  trace : vm.state.trace.length ≤ granted

/-- After any calls on a loaded program all that the guest has made the
object store fits in the number of steps it was granted. -/
theorem storageBounded {loaded : Interpreter} {calls : List Call}
    {replies : List Reply} (loads : Loads program loaded)
    (driving : ∀ call ∈ calls, call.driving)
    (finished : run (call host) calls loaded = .ok (replies, vm)) :
    StorageBounded (calls.map Call.granted).sum vm := by
  have reached : Reachable host program vm :=
    ⟨loaded, calls, replies, loads, driving, finished⟩
  have paid : vm.StoragePaid := reached.invariant
    (fun _ loads => loads.storagePaid)
    (fun _ _ _ paid stepped => paid.step stepped)
    (fun _ _ _ _ paid => paid.setRegister)
  have recorded := traceLength_run driving finished
  have empty : loaded.state.trace.length = 0 := by
    obtain ⟨policy, same⟩ := loads.state_eq
    rw [same]
    rfl
  rw [empty, Nat.zero_add] at recorded
  exact ⟨paid.storage, paid.log, recorded⟩

/-- A program that stores with every instruction. -/
def nestedOption : Program where
  insns := [
    { opcode := .makeOptionNone, a := 0, b := 0, c := 0 },
    { opcode := .makeOptionSome, a := 0, b := 0, c := 0 }]
  axionPolicyText := []
  fits := by decide

/-- Two steps store two entries, as many as they can. -/
theorem storageBounded_nestedOption :
    ∃ replies vm, run (call strictHost) [.step, .runToHalt 1]
        (freshlyLoaded nestedOption) = .ok (replies, vm) ∧
      vm.storage = 2 ∧ StorageBounded 2 vm := by
  have finished : run (call strictHost) [.step, .runToHalt 1]
      (freshlyLoaded nestedOption) = .ok _ := rfl
  have driving : ∀ call ∈ [Call.step, .runToHalt 1], call.driving := by
    simp [Call.driving]
  exact ⟨_, _, finished, rfl,
    storageBounded (loads_freshlyLoaded rfl) driving finished⟩

end Interpreter

end T81VM.VM
