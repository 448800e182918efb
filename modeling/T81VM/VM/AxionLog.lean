import T81VM.VM.Faults
import T81VM.VM.PolicyGate
import T81VM.VM.SegmentPartition

/-!
# The Axion log

The log only grows, by at most one event of the executed opcode in each step.
The events of the guarded opcodes, of bounds faults and of completed stores
say what happened in their step.
-/

namespace T81VM.VM

open Tisc PartialSystem

/-- The label under which an opcode logs its guard. -/
def guardLabel : Opcode → Option Text
  | .axRead => some (text "AxRead guard")
  | .axSet => some (text "AxSet guard")
  | .axVerify => some (text "AxVerify guard")
  | _ => none

/-- The text of `log_axion_guard`. -/
def guardReason (label : Text) (segment : MemorySegmentKind) (addr : Int64)
    (denied : Bool) (value : Option Int64) : Text :=
  label ++ text " segment=" ++ segment.name
    ++ text " addr=" ++ Decimal.integer addr.toInt
    ++ (match value with
        | some value => text " value=" ++ Decimal.integer value.toInt
        | none => [])
    ++ (if denied then text " deny=tier0" else text " allow")

def IsGuardEvent (event : AxionEvent) : Prop :=
  ∃ label segment addr denied value,
    guardLabel event.opcode = some label ∧
      event.reason = guardReason label segment addr denied value

/-- The event reports a denial. -/
def SaysDeny (event : AxionEvent) : Prop :=
  text " deny=tier0" <:+ event.reason

/-- The text of `log_bounds_fault`. -/
def IsBoundsFaultEvent (event : AxionEvent) : Prop :=
  ∃ (segment : MemorySegmentKind) (addr : Int64) (action : Text),
    event.reason = text "bounds fault segment=" ++ segment.name
      ++ text " addr=" ++ Decimal.integer addr.toInt
      ++ text " action=" ++ action

/-- The event names the one segment that contains an address. -/
def NamesSegmentOf (layout : MemoryLayout) (addr : Nat)
    (event : AxionEvent) : Prop :=
  ∃ kind : MemorySegmentKind,
    event.reason = text "segment access " ++ kind.name ∧
      ∀ other, (layout.segment other).contains addr = true ↔ other = kind

theorem saysDeny_guardReason_iff {opcode : Opcode} {label : Text}
    {segment : MemorySegmentKind} {addr : Int64} {denied : Bool}
    {value : Option Int64} :
    SaysDeny { opcode, reason := guardReason label segment addr denied value } ↔
      denied = true := by
  cases denied with
  | true => exact iff_of_true (List.suffix_append _ _) rfl
  | false =>
      refine iff_of_false (fun deny => ?_) (by decide)
      -- The two texts end in different bytes.
      obtain ⟨front, same⟩ := deny
      have denyEnd : (text " deny=tier0").getLast? = some 48 := by decide
      have allowEnd : (text " allow").getLast? = some 119 := by decide
      have last := congrArg List.getLast? same
      simp only [guardReason, Bool.false_eq_true, if_false,
        List.getLast?_append, denyEnd, allowEnd, Option.some_or] at last
      exact absurd (Option.some.inj last) (by decide)

namespace Interpreter

variable {host : Host} {program : Program} {vm final : Interpreter}
  {insn : Insn} {pc : Nat} {result : Expected}

/-! ## What each branch logs -/

theorem finishWrite_log {value : Int64} {tag : ValueTag}
    (executed : vm.finishWrite insn pc value tag = .ok (result, final)) :
    final.state.axionLog = vm.state.axionLog := by
  obtain ⟨reg, _, same⟩ := finishWrite_eq_ok.mp executed
  cases same
  rfl

/-- The log after a guard that reported its decision under a label. -/
def GuardLogged (vm : Interpreter) (opcode : Opcode) (label : Text)
    (final : Interpreter) : Prop :=
  ∃ segment addr value, final.state.axionLog = vm.state.axionLog ++
    [{ opcode, reason := guardReason label segment addr vm.axionDenied value }]

theorem executeAxRead_logs
    (executed : vm.executeAxRead insn pc = .ok (result, final)) :
    GuardLogged vm insn.opcode (text "AxRead guard") final := by
  refine ⟨vm.guardSegment insn.b, insn.b, none, ?_⟩
  cases denied : vm.axionDenied with
  | true =>
      simp only [executeAxRead, denied, if_true] at executed
      cases executed
      rfl
  | false =>
      simp only [executeAxRead, denied, Bool.false_eq_true, if_false]
        at executed
      rw [finishWrite_log executed]
      rfl

theorem executeAxSet_logs
    (executed : vm.executeAxSet insn pc = .ok (result, final)) :
    GuardLogged vm insn.opcode (text "AxSet guard") final := by
  obtain ⟨value, _, rest⟩ := bind_eq_ok.mp executed
  obtain ⟨addr, _, rest⟩ := bind_eq_ok.mp rest
  refine ⟨vm.guardSegment addr, addr, some value, ?_⟩
  cases denied : vm.axionDenied with
  | true =>
      simp only [denied, if_true] at rest
      cases rest
      rfl
  | false =>
      simp only [denied, Bool.false_eq_true, if_false] at rest
      cases rest
      rfl

theorem executeAxVerify_logs
    (executed : vm.executeAxVerify insn pc = .ok (result, final)) :
    GuardLogged vm insn.opcode (text "AxVerify guard") final := by
  refine ⟨.metaSegment, ofSize pc, none, ?_⟩
  cases denied : vm.axionDenied with
  | true =>
      simp only [executeAxVerify, denied, if_true] at executed
      cases executed
      rfl
  | false =>
      simp only [executeAxVerify, denied, Bool.false_eq_true, if_false]
        at executed
      rw [finishWrite_log executed]
      rfl

/-- A guarded opcode logs its guard under its label. -/
theorem execute_guarded_logs (isGuarded : guarded insn.opcode = true)
    (executed : vm.execute host insn pc = .ok (result, final)) :
    ∃ label, guardLabel insn.opcode = some label ∧
      GuardLogged vm insn.opcode label final := by
  cases opcode : insn.opcode <;> rw [opcode] at isGuarded <;>
    cases isGuarded <;> rw [execute, opcode] at executed
  case axRead => exact ⟨_, rfl, opcode ▸ executeAxRead_logs executed⟩
  case axSet => exact ⟨_, rfl, opcode ▸ executeAxSet_logs executed⟩
  case axVerify => exact ⟨_, rfl, opcode ▸ executeAxVerify_logs executed⟩

/-- The log after a bounds fault. -/
def BoundsLogged (vm : Interpreter) (opcode : Opcode)
    (final : Interpreter) : Prop :=
  ∃ event : AxionEvent, final.state.axionLog = vm.state.axionLog ++ [event] ∧
    event.opcode = opcode ∧ IsBoundsFaultEvent event

theorem logBoundsFault_trap {code : Trap} {segment kind : MemorySegmentKind}
    {addr : Int64} {action detail : Text} :
    BoundsLogged vm insn.opcode
      ((vm.logBoundsFault insn.opcode segment addr action).trap code
        insn.opcode pc kind detail).2 :=
  ⟨_, rfl, rfl, segment, addr, action, rfl⟩

theorem executeLoad_logs {code : Trap}
    (executed : vm.executeLoad insn pc = .ok (.error code, final)) :
    BoundsLogged vm insn.opcode final := by
  unfold executeLoad at executed
  by_cases outside : (!vm.validMem insn.b) = true
  · rw [if_pos outside] at executed
    cases executed
    exact logBoundsFault_trap
  · rw [if_neg outside] at executed
    obtain ⟨value, _, rest⟩ := bind_eq_ok.mp executed
    obtain ⟨reg, _, same⟩ := finishWrite_eq_ok.mp rest
    cases same

theorem executeStore_logs {code : Trap}
    (executed : vm.executeStore insn pc = .ok (.error code, final)) :
    BoundsLogged vm insn.opcode final := by
  unfold executeStore at executed
  by_cases outside : (!vm.validMem insn.a) = true
  · rw [if_pos outside] at executed
    cases executed
    exact logBoundsFault_trap
  · rw [if_neg outside] at executed
    obtain ⟨value, _, rest⟩ := bind_eq_ok.mp executed
    obtain ⟨stored, _, rest⟩ := bind_eq_ok.mp rest
    cases rest

theorem executeHeapAlloc_logs
    (executed : vm.executeHeapAlloc insn pc =
      .ok (.error .boundsFault, final)) :
    BoundsLogged vm insn.opcode final := by
  unfold executeHeapAlloc at executed
  by_cases small : insn.b ≤ 0
  · rw [if_pos small] at executed
    cases executed
  rw [if_neg small] at executed
  by_cases full : wrapSize (vm.state.heapPtr + toSize insn.b) >
      vm.state.layout.heap.limit
  · simp only [full, if_true] at executed
    cases executed
    exact logBoundsFault_trap
  · simp only [full, if_false] at executed
    obtain ⟨written, _, rest⟩ := bind_eq_ok.mp executed
    cases rest

theorem boundsFault_opcode
    (listed : Trap.boundsFault ∈ faultCodes insn.opcode) :
    insn.opcode = .load ∨ insn.opcode = .store ∨ insn.opcode = .heapAlloc := by
  cases opcode : insn.opcode <;> rw [opcode] at listed
  case load => exact .inl rfl
  case store => exact .inr (.inl rfl)
  case heapAlloc => exact .inr (.inr rfl)
  case undefined =>
    have decode : Trap.boundsFault ∈ [Trap.decodeFault] := listed
    exact absurd decode (by decide)
  all_goals exact absurd listed (by decide)

theorem execute_boundsFault_logs
    (executed : vm.execute host insn pc = .ok (.error .boundsFault, final)) :
    BoundsLogged vm insn.opcode final := by
  have listed := execute_faultCodes .boundsFault final executed
  rcases boundsFault_opcode listed with opcode | opcode | opcode <;>
    rw [execute, opcode] at executed
  · exact executeLoad_logs executed
  · exact executeStore_logs executed
  · exact executeHeapAlloc_logs executed

/-- A store that completes logs the segment of its address. -/
theorem executeStore_logs_segment
    (executed : vm.executeStore insn pc = .ok (.ok (), final)) :
    vm.segmentOf (toSize insn.a) ≠ .unknown ∧
      final.state.axionLog = vm.state.axionLog ++
        [{ opcode := insn.opcode,
           reason := text "segment access "
             ++ (vm.segmentOf (toSize insn.a)).name }] := by
  unfold executeStore at executed
  by_cases outside : (!vm.validMem insn.a) = true
  · rw [if_pos outside] at executed
    cases executed
  · rw [if_neg outside] at executed
    have inside : vm.validMem insn.a = true := by simpa using outside
    have known := (validMem_iff.mp inside).2.2
    obtain ⟨value, _, rest⟩ := bind_eq_ok.mp executed
    obtain ⟨stored, memory, rest⟩ := bind_eq_ok.mp rest
    obtain ⟨_, rfl⟩ := setMemory_eq_ok.mp memory
    rw [logSegmentEvent, if_neg known] at rest
    cases rest
    exact ⟨known, rfl⟩

/-! ## Steps and runs -/

/-- The log accounts for a step. -/
structure AuditedStep (host : Host) (vm : Interpreter) : Prop where
  /-- It grows by at most one event, of the executed opcode. -/
  appends : ∀ result final, vm.step host = .ok (result, final) →
    ∃ events, final.state.axionLog = vm.state.axionLog ++ events ∧
      events.length ≤ 1 ∧
      ∀ event ∈ events, ∃ insn, vm.Fetches insn ∧ event.opcode = insn.opcode
  /-- A guarded step logs its guard, which denies when the step traps. -/
  guards : ∀ insn, vm.Fetches insn → guarded insn.opcode = true →
    ∃ result final event, vm.step host = .ok (result, final) ∧
      final.state.axionLog = vm.state.axionLog ++ [event] ∧
      event.opcode = insn.opcode ∧ IsGuardEvent event ∧
      (SaysDeny event ↔ result = .error .securityFault)
  /-- Every security fault comes from a guarded step. -/
  security : ∀ final, vm.step host = .ok (.error .securityFault, final) →
    ∃ insn, vm.Fetches insn ∧ guarded insn.opcode = true
  /-- A bounds fault is logged as one. -/
  bounds : ∀ final, vm.step host = .ok (.error .boundsFault, final) →
    ∃ insn event, vm.Fetches insn ∧
      final.state.axionLog = vm.state.axionLog ++ [event] ∧
      event.opcode = insn.opcode ∧ IsBoundsFaultEvent event
  /-- A store that completes logs the segment it wrote to. -/
  stores : ∀ insn final, vm.Fetches insn → insn.opcode = .store →
    vm.step host = .ok (.ok (), final) →
    ∃ event, final.state.axionLog = vm.state.axionLog ++ [event] ∧
      event.opcode = .store ∧
      NamesSegmentOf vm.state.layout (toSize insn.a) event

/-- The events of a step, with what names them. -/
theorem step_appends (stepped : vm.step host = .ok (result, final)) :
    ∃ events, final.state.axionLog = vm.state.axionLog ++ events ∧
      events.length ≤ 1 ∧
      ∀ event ∈ events, ∃ insn, vm.Fetches insn ∧
        event.opcode = insn.opcode := by
  have silent : ∀ {state : State}, state.axionLog = vm.state.axionLog →
      ∃ events, state.axionLog = vm.state.axionLog ++ events ∧
        events.length ≤ 1 ∧
        ∀ event ∈ events, ∃ insn, vm.Fetches insn ∧
          event.opcode = insn.opcode := by
    intro state same
    exact ⟨[], by rw [same, List.append_nil], by simp, by simp⟩
  cases step_stepped stepped with
  | resting | rejected | overrun => exact silent rfl
  | @executed insn _ fetches transition =>
      cases transition with
      | faulted few named | idled _ few named | written _ _ _ few named
      | stored _ _ _ few named | stackAllocated _ _ _ _ _ few named
      | stackFreed _ _ _ _ _ few named | heapAllocated _ _ _ _ few named
      | heapFreed _ _ _ _ _ few named =>
          exact ⟨_, rfl, few, fun event member =>
            ⟨insn, fetches, named event member⟩⟩
      | _ => exact silent rfl

theorem guarded_of_securityFault
    (listed : Trap.securityFault ∈ faultCodes insn.opcode) :
    guarded insn.opcode = true := by
  cases opcode : insn.opcode <;> rw [opcode] at listed
  case axRead | axSet | axVerify => rfl
  case undefined =>
    have decode : Trap.securityFault ∈ [Trap.decodeFault] := listed
    exact absurd decode (by decide)
  all_goals exact absurd listed (by decide)

/-- A trap with another code than the verdict of the loader is the trap of
an executed instruction. -/
theorem Accepted.executed_of_trap {code : Trap}
    (accepted : Accepted program vm) (other : code ≠ .decodeFault)
    (stepped : vm.step host = .ok (.error code, final)) :
    ∃ insn, vm.Fetches insn ∧
      vm.beginInsn.execute host insn vm.state.pc =
        .ok (.error code, final) := by
  cases step_stepped stepped with
  | rejected running preload =>
      rw [accepted.preloadTrap_eq] at preload
      cases preload
  | overrun => exact absurd rfl other
  | @executed insn _ fetches transition =>
      rw [step_of_fetches fetches] at stepped
      exact ⟨insn, fetches, stepped⟩

/-- The log accounts for every step of an accepted program. -/
theorem Accepted.auditedStep (valid : validateProgram program = none)
    (accepted : Accepted program vm) : AuditedStep host vm := by
  refine ⟨fun result final stepped => step_appends stepped, ?_, ?_, ?_, ?_⟩
  · intro insn fetches isGuarded
    have operands := accepted.validOperands valid fetches
    obtain ⟨⟨result, final⟩, executed⟩ :=
      @execute_guarded_defined host vm.beginInsn insn vm.state.pc _ isGuarded
        operands
    have stepped : vm.step host = .ok (result, final) := by
      rw [step_of_fetches fetches]
      exact executed
    obtain ⟨label, labelled, segment, addr, value, logged⟩ :=
      execute_guarded_logs isGuarded executed
    refine ⟨result, final, _, stepped, logged, rfl,
      ⟨label, segment, addr, _, value, labelled, rfl⟩, ?_⟩
    rw [saysDeny_guardReason_iff]
    have gate := step_gate fetches isGuarded stepped
    cases denied : vm.axionDenied with
    | true => exact iff_of_true denied (gate.1 denied).1
    | false =>
        rw [gate.2 denied]
        refine iff_of_false (fun again => ?_) (by simp)
        have allowed : vm.axionDenied = true := again
        rw [denied] at allowed
        cases allowed
  · intro final stepped
    obtain ⟨insn, fetches, executed⟩ :=
      accepted.executed_of_trap (by decide) stepped
    exact ⟨insn, fetches, guarded_of_securityFault
      (execute_faultCodes .securityFault final executed)⟩
  · intro final stepped
    obtain ⟨insn, fetches, executed⟩ :=
      accepted.executed_of_trap (by decide) stepped
    obtain ⟨event, logged, named, bounds⟩ := execute_boundsFault_logs executed
    exact ⟨insn, event, fetches, logged, named, bounds⟩
  · intro insn final fetches opcode stepped
    rw [step_of_fetches fetches, execute, opcode] at stepped
    obtain ⟨known, logged⟩ := executeStore_logs_segment stepped
    refine ⟨_, logged, opcode, vm.segmentOf (toSize insn.a), rfl, ?_⟩
    intro other
    rw [accepted.toInstalled.contains_segment_iff]
    constructor
    · intro classified
      exact classified.1.symm
    · intro same
      subst same
      exact ⟨rfl, known⟩

theorem setRegister_axionLog {idx : Int32} {value : Int64} {tag : ValueTag} :
    (vm.setRegister idx value tag).state.axionLog = vm.state.axionLog := by
  unfold Interpreter.setRegister
  split <;> rfl

/-- No call takes anything from the log. -/
theorem axionLog_isPrefix_of_call {request : Call} {reply : Reply}
    (driving : request.driving)
    (answered : call host request vm = .ok (reply, final)) :
    vm.state.axionLog <+: final.state.axionLog := by
  apply journal_isPrefix_of_call (fun vm => vm.state.axionLog) ?_ ?_ driving
    answered
  · intro state result next stepped
    obtain ⟨events, grown, _⟩ := step_appends stepped
    exact ⟨events, grown.symm⟩
  · intro state idx value tag
    exact setRegister_axionLog

/-- The log of a run only grows, and it accounts for every step the calls
take and for the one that could follow them. -/
structure AxionLogFaithful (host : Host) (loaded : Interpreter)
    (calls : List Call) : Prop where
  grows : Along (call host) (fun request state =>
    ∀ reply final, call host request state = .ok (reply, final) →
      state.state.axionLog <+: final.state.axionLog) calls loaded
  audited : Along (call host) (StepsAlong host (AuditedStep host)) calls loaded
  last : ∀ replies vm, run (call host) calls loaded = .ok (replies, vm) →
    AuditedStep host vm

/-- The Axion log of an accepted program is faithful in every run. -/
theorem axionLogFaithful {loaded : Interpreter} {calls : List Call}
    (accepted : validateProgram program = none)
    (loads : Loads program loaded)
    (driving : ∀ call ∈ calls, call.driving) :
    AxionLogFaithful host loaded calls := by
  have kept := @run_stepsAlways host _
    (fun _ _ _ kept stepped => Accepted.step kept stepped)
    (fun _ _ _ _ kept => Accepted.setRegister kept) _ driving _
    (loads.accepted accepted)
  refine ⟨?_, ?_, ?_⟩
  · apply (along_of_forall driving).mono
    intro request state allowed reply final answered
    exact axionLog_isPrefix_of_call allowed answered
  · apply kept.1.mono
    intro request state steps
    exact steps.mono fun vm here => here.auditedStep accepted
  · intro replies vm finished
    exact (kept.2 replies vm finished).auditedStep accepted

/-- Store a register into the code segment, read under a guard, and load from
an address that no segment contains. -/
def storeReadLoad : Program where
  insns := [
    { opcode := .store, a := 0, b := 0, c := 0 },
    { opcode := .axRead, a := 1, b := 5, c := 0 },
    { opcode := .load, a := 2, b := -1, c := 0 }]
  axionPolicyText := []
  fits := by decide

theorem axionLogFaithful_storeReadLoad :
    AxionLogFaithful strictHost (freshlyLoaded storeReadLoad)
      [.step, .runToHalt 5] :=
  axionLogFaithful rfl (loads_freshlyLoaded rfl) (by simp [Call.driving])

end Interpreter

end T81VM.VM
