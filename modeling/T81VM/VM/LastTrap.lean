import T81VM.VM.CApi

/-!
# The trap a handle reports

The handle and the machine both keep the last trap.  A halt clears the one of
the machine, and a budget that is used up sets the one of the handle; the two
stay equal as long as no call takes one of these branches with another trap
on record.
-/

namespace T81VM.VM

open Tisc PartialSystem ProgramIo

/-- The trap the machine has on record, as a status. -/
def recordedStatus (vm : Interpreter) : Int32 :=
  match vm.state.lastTrapPayload with
  | some payload => trapToStatus payload.trap
  | none => 0

/-- Handle and machine report the same last trap. -/
def LastTrapAgrees : Option Handle → Prop
  | none => True
  | some handle => t81vmLastTrap (some handle) = recordedStatus handle.vm

/-- No trap is on record when the next step halts. -/
def HaltsUnrecorded (vm : Interpreter) : Prop :=
  ∀ insn, vm.Fetches insn → insn.opcode = .halt →
    vm.state.lastTrapPayload = none

/-- No trap is on record when the loop comes to a halt, and a trap of a `Trap`
instruction is when it uses up its budget. -/
structure LoopRecorded (host : Host) (maxSteps : Nat)
    (vm : Interpreter) : Prop where
  halts : vm.state.halted = false →
    ∀ final, Interpreter.Loops host maxSteps vm .halted final →
      vm.state.lastTrapPayload = none
  exhausts : ∀ final, Interpreter.Loops host maxSteps vm .exhausted final →
    ∃ payload, vm.state.lastTrapPayload = some payload ∧
      payload.trap = .trapInstruction

/-- The branches on which handle and machine part are not taken. -/
def KeepsLastTrap (host : Host) : ApiCall → Option Handle → Prop
  | .step, some handle => HaltsUnrecorded handle.vm
  | .runToHalt maxSteps, some handle => LoopRecorded host maxSteps handle.vm
  | .loadFile .., _ | .step, none | .runToHalt _, none => True

namespace Interpreter

variable {host : Host} {vm final : Interpreter} {maxSteps : Nat}

/-- The loop leaves the record of its start when it uses up its budget. -/
theorem Loops.exhausted_payload
    (loops : Loops host maxSteps vm .exhausted final) :
    final.state.lastTrapPayload = vm.state.lastTrapPayload := by
  generalize whole : LoopExit.exhausted = exit at loops
  induction loops with
  | exhausted => rfl
  | trapped | halted => cases whole
  | next stepped running _ induction =>
      have rest := induction whole
      cases step_trapRecord stepped with
      | rests halted =>
          rw [running] at halted
          cases halted
      | halts _ _ halted =>
          rw [running] at halted
          cases halted
      | goesOn _ _ _ kept => exact rest.trans kept

/-- The loop that comes to a halt clears the record, unless it only rests. -/
theorem Loops.halted_payload (loops : Loops host maxSteps vm .halted final)
    (running : vm.state.halted = false) :
    final.state.lastTrapPayload = none := by
  generalize whole : LoopExit.halted = exit at loops
  induction loops with
  | exhausted | trapped => cases whole
  | halted stepped halts =>
      cases step_trapRecord stepped with
      | rests halted =>
          rw [running] at halted
          cases halted
      | halts _ _ _ cleared => exact cleared
      | goesOn _ _ again =>
          rw [halts] at again
          cases again
  | next _ runs _ induction => exact induction runs whole

/-- The loop of a halted machine rests. -/
theorem Loops.rests (loops : Loops host maxSteps vm .halted final)
    (halted : vm.state.halted = true) : final = vm := by
  have rests : vm.step host = .ok (.ok (), vm) := by
    rw [step, if_pos halted]
  cases loops with
  | halted stepped =>
      rw [rests] at stepped
      cases stepped
      rfl
  | next stepped running =>
      rw [rests] at stepped
      cases stepped
      rw [halted] at running
      cases running

theorem Loops.trapped_payload {code : Trap}
    (loops : Loops host maxSteps vm (.trapped code) final) :
    ∃ payload, final.state.lastTrapPayload = some payload ∧
      payload.trap = code := by
  have anywhere : ∀ (vm : Interpreter) (result : Expected)
      (final : Interpreter), True → vm.step host = .ok (result, final) →
        True := fun _ _ _ _ _ => trivial
  obtain ⟨state, _, stepped⟩ := loops.last_step anywhere trivial
  exact (recorded_of_step stepped).payload

theorem recordedStatus_of_some {payload : TrapPayload}
    (recorded : vm.state.lastTrapPayload = some payload) :
    recordedStatus vm = trapToStatus payload.trap := by
  rw [recordedStatus, recorded]

theorem recordedStatus_of_none (clear : vm.state.lastTrapPayload = none) :
    recordedStatus vm = 0 := by
  rw [recordedStatus, clear]

/-- No status of a recorded trap reads as none. -/
theorem TrapsReal.recordedStatus_eq_zero_iff (real : TrapsReal vm) :
    recordedStatus vm = 0 ↔ vm.state.lastTrapPayload = none := by
  constructor
  · intro zero
    cases recorded : vm.state.lastTrapPayload with
    | none => rfl
    | some payload =>
        rw [recordedStatus_of_some recorded] at zero
        have codes : trapToStatus payload.trap = trapToStatus .none := zero
        exact absurd (trapToStatus_inj codes) (real.payload payload recorded)
  · exact recordedStatus_of_none

theorem recordedStatus_eq_trapInstruction_iff :
    recordedStatus vm = trapToStatus .trapInstruction ↔
      ∃ payload, vm.state.lastTrapPayload = some payload ∧
        payload.trap = .trapInstruction := by
  constructor
  · intro same
    cases recorded : vm.state.lastTrapPayload with
    | none =>
        rw [recordedStatus_of_none recorded] at same
        exact absurd same (by decide)
    | some payload =>
        rw [recordedStatus_of_some recorded] at same
        exact ⟨payload, rfl, trapToStatus_inj same⟩
  · intro present
    obtain ⟨payload, recorded, named⟩ := present
    rw [recordedStatus_of_some recorded, named]

end Interpreter

namespace Handle

variable {host : Host} {handle final : Handle} {pointer : Option Handle}
  {reply : ApiReply} {status : Int32} {maxSteps : Nat}

/-- A call that returns with a trap leaves the trap on both records. -/
theorem agrees_of_trap {vm : Interpreter} {code : Trap}
    {payload : TrapPayload}
    (recorded : vm.state.lastTrapPayload = some payload)
    (named : payload.trap = code)
    (same : (status, pointer) = handle.trapped vm code) :
    LastTrapAgrees pointer := by
  cases same
  show trapToStatus code = recordedStatus vm
  rw [Interpreter.recordedStatus_of_some recorded, named]

/-- Clearing the record of the machine alone is right only when it was
clear. -/
theorem agrees_of_clear_iff {vm : Interpreter} (real : handle.vm.TrapsReal)
    (agrees : LastTrapAgrees (some handle))
    (cleared : vm.state.lastTrapPayload = none) :
    LastTrapAgrees (some { handle with vm }) ↔
      handle.vm.state.lastTrapPayload = none := by
  have before : handle.lastTrap = recordedStatus handle.vm := agrees
  show handle.lastTrap = recordedStatus vm ↔ _
  rw [Interpreter.recordedStatus_of_none cleared, before]
  exact real.recordedStatus_eq_zero_iff

theorem agrees_of_kept {vm : Interpreter}
    (agrees : LastTrapAgrees (some handle))
    (kept : vm.state.lastTrapPayload = handle.vm.state.lastTrapPayload) :
    LastTrapAgrees (some { handle with vm }) := by
  have before : handle.lastTrap = recordedStatus handle.vm := agrees
  show handle.lastTrap = recordedStatus vm
  rw [before, recordedStatus, recordedStatus, kept]

theorem t81vmStep_agrees_iff (real : handle.vm.TrapsReal)
    (agrees : LastTrapAgrees (some handle))
    (returned : t81vmStep host (some handle) = .ok (status, pointer)) :
    LastTrapAgrees pointer ↔ HaltsUnrecorded handle.vm := by
  obtain ⟨result, vm, stepped, rest⟩ := t81vmStep_eq_ok.mp returned
  cases Interpreter.step_trapRecord stepped with
  | rests halted =>
      rcases rest with ⟨code, same, _⟩ | ⟨_, rfl, _⟩
      · cases same
      · refine iff_of_true (agrees_of_kept agrees rfl) fun insn fetches _ => ?_
        have running := fetches.running
        rw [halted] at running
        cases running
  | traps running recorded named =>
      rcases rest with ⟨code, same, kept⟩ | ⟨same, _⟩
      · cases same
        refine iff_of_true (agrees_of_trap recorded named kept)
          fun insn fetches opcode => ?_
        rw [Interpreter.step_of_fetches fetches, Interpreter.execute,
          opcode] at stepped
        cases stepped
      · cases same
  | halts fetches opcode halted cleared =>
      rcases rest with ⟨code, same, _⟩ | ⟨_, rfl, _⟩
      · cases same
      · rw [agrees_of_clear_iff real agrees cleared]
        constructor
        · intro clear insn _ _
          exact clear
        · intro unrecorded
          exact unrecorded _ fetches opcode
  | goesOn fetches opcode running kept =>
      rcases rest with ⟨code, same, _⟩ | ⟨_, rfl, _⟩
      · cases same
      · refine iff_of_true (agrees_of_kept agrees kept)
          fun insn again halt => ?_
        rw [fetches.unique again] at opcode
        exact absurd halt opcode

theorem t81vmRunToHalt_agrees_iff (real : handle.vm.TrapsReal)
    (agrees : LastTrapAgrees (some handle))
    (returned : t81vmRunToHalt host maxSteps (some handle) =
      .ok (status, pointer)) :
    LastTrapAgrees pointer ↔ LoopRecorded host maxSteps handle.vm := by
  obtain ⟨result, vm, finished, rest⟩ := t81vmRunToHalt_eq_ok.mp returned
  obtain ⟨exit, loops, verdict⟩ :=
    Interpreter.runToHalt_eq_ok_iff_loops.mp finished
  subst verdict
  cases exit with
  | trapped code =>
      obtain ⟨payload, recorded, named⟩ := loops.trapped_payload
      rcases rest with ⟨other, same, kept⟩ | ⟨same, _⟩
      · cases same
        refine iff_of_true (agrees_of_trap recorded named kept) ⟨?_, ?_⟩
        · intro _ last other
          cases (loops.unique other).1
        · intro last other
          cases (loops.unique other).1
      · cases same
  | halted =>
      rcases rest with ⟨other, same, _⟩ | ⟨_, rfl, _⟩
      · cases same
      · have unexhausted : ∀ last,
            ¬ Interpreter.Loops host maxSteps handle.vm .exhausted last := by
          intro last other
          cases (loops.unique other).1
        cases before : handle.vm.state.halted with
        | true =>
            rw [loops.rests before]
            refine iff_of_true (agrees_of_kept agrees rfl) ⟨?_, ?_⟩
            · intro running
              rw [before] at running
              cases running
            · intro last other
              exact (unexhausted last other).elim
        | false =>
            rw [agrees_of_clear_iff real agrees (loops.halted_payload before)]
            constructor
            · intro clear
              refine ⟨fun _ _ _ => clear, fun last other => ?_⟩
              exact (unexhausted last other).elim
            · intro recorded
              exact recorded.halts before vm loops
  | exhausted =>
      have kept := loops.exhausted_payload
      rcases rest with ⟨other, same, set⟩ | ⟨same, _⟩
      · cases same
        cases set
        have status_eq : LastTrapAgrees (some { handle with
            vm, lastTrap := trapToStatus .trapInstruction }) ↔
            recordedStatus vm = trapToStatus .trapInstruction := eq_comm
        rw [status_eq, Interpreter.recordedStatus_eq_trapInstruction_iff,
          kept]
        constructor
        · intro present
          refine ⟨fun _ last other => ?_, fun _ _ => present⟩
          cases (loops.unique other).1
        · intro recorded
          exact recorded.exhausts vm loops
      · cases same

/-- A call that runs the program keeps the agreement exactly when it takes
neither branch on which the two records part. -/
theorem keepsLastTrap_iff {request : ApiCall} (runs : request.runs)
    (real : handle.vm.TrapsReal) (agrees : LastTrapAgrees (some handle))
    (answered : apiCall host request (some handle) = .ok (reply, pointer)) :
    LastTrapAgrees pointer ↔ KeepsLastTrap host request (some handle) := by
  cases request with
  | loadFile => exact runs.elim
  | step =>
      obtain ⟨status, returned, _⟩ := apiCall_step_eq_ok.mp answered
      exact t81vmStep_agrees_iff real agrees returned
  | runToHalt maxSteps =>
      obtain ⟨status, returned, _⟩ := apiCall_runToHalt_eq_ok.mp answered
      exact t81vmRunToHalt_agrees_iff real agrees returned

/-- A call that gets stuck takes neither branch. -/
theorem keepsLastTrap_of_stuck {request : ApiCall} {reason : Stuck}
    (stuck : apiCall host request (some handle) = .error reason) :
    KeepsLastTrap host request (some handle) := by
  cases request with
  | loadFile => trivial
  | step =>
      intro insn fetches opcode
      have halts : ∃ answer, handle.vm.step host = .ok answer := by
        rw [Interpreter.step_of_fetches fetches, Interpreter.execute, opcode]
        exact ⟨_, rfl⟩
      obtain ⟨answer, stepped⟩ := halts
      obtain ⟨answer, returned⟩ := t81vmStep_returns stepped
      rw [apiCall, returned] at stuck
      cases stuck
  | runToHalt maxSteps =>
      have unended : ∀ exit final,
          ¬ Interpreter.Loops host maxSteps handle.vm exit final := by
        intro exit final loops
        have finished := Interpreter.runToHalt_eq_ok_iff_loops.mpr
          ⟨exit, loops, rfl⟩
        obtain ⟨answer, returned⟩ := t81vmRunToHalt_returns finished
        rw [apiCall, returned] at stuck
        cases stuck
      exact ⟨fun _ final loops => (unended _ final loops).elim,
        fun final loops => (unended _ final loops).elim⟩

end Handle

/-- Handle and machine report the same trap after every call of a run exactly
when no call takes a branch on which they part; and a loop cut in two slices
leaves the same machine as the whole loop, so where neither is cut on such a
branch both finally report the same trap. -/
structure LastTrapFaithful (host : Host) (handle : Handle)
    (calls : List ApiCall) : Prop where
  agrees : Everywhere (apiCall host) LastTrapAgrees calls (some handle) ↔
    Along (apiCall host) (KeepsLastTrap host) calls (some handle)
  sliced : ∀ m n replies last middle slices one reply other,
    run (apiCall host) calls (some handle) = .ok (replies, some last) →
    Interpreter.Loops host m last.vm .exhausted middle →
    run (apiCall host) [.runToHalt m, .runToHalt n] (some last) =
      .ok (slices, some one) →
    apiCall host (.runToHalt (m + n)) (some last) =
      .ok (reply, some other) →
    one.vm = other.vm ∧
      (Along (apiCall host) (KeepsLastTrap host)
          (calls ++ [.runToHalt m, .runToHalt n]) (some handle) →
        Along (apiCall host) (KeepsLastTrap host)
          (calls ++ [.runToHalt (m + n)]) (some handle) →
        t81vmLastTrap (some one) = t81vmLastTrap (some other))

/-- The machines after two slices and after the whole loop. -/
theorem Handle.vm_of_slices {host : Host} {m n : Nat} {middle : Interpreter}
    {last one other : Handle} {replies : List ApiReply} {reply : ApiReply}
    (used : Interpreter.Loops host m last.vm .exhausted middle)
    (sliced : run (apiCall host) [.runToHalt m, .runToHalt n] (some last) =
      .ok (replies, some one))
    (whole : apiCall host (.runToHalt (m + n)) (some last) =
      .ok (reply, some other)) :
    one.vm = other.vm := by
  obtain ⟨first, between, rest, firstAnswer, tail, _⟩ :=
    run_cons_eq_ok.mp sliced
  obtain ⟨second, final, none, secondAnswer, ended, _⟩ :=
    run_cons_eq_ok.mp tail
  cases ended
  obtain ⟨status, returned, _⟩ := apiCall_runToHalt_eq_ok.mp firstAnswer
  obtain ⟨result, vm, finished, kept⟩ := t81vmRunToHalt_eq_ok.mp returned
  have exhausted := Interpreter.runToHalt_eq_ok_iff_loops.mpr
    ⟨.exhausted, used, rfl⟩
  rw [exhausted] at finished
  cases finished
  obtain ⟨handle, rfl, same⟩ : ∃ handle : Handle,
      between = some handle ∧ handle.vm = middle := by
    rcases kept with ⟨code, _, same⟩ | ⟨impossible, _⟩
    · cases same
      exact ⟨_, rfl, rfl⟩
    · cases impossible
  obtain ⟨status, returned, _⟩ := apiCall_runToHalt_eq_ok.mp secondAnswer
  obtain ⟨result, vm, finished, kept⟩ := t81vmRunToHalt_eq_ok.mp returned
  obtain ⟨status, returned, _⟩ := apiCall_runToHalt_eq_ok.mp whole
  obtain ⟨result, again, all, wholeKept⟩ := t81vmRunToHalt_eq_ok.mp returned
  rw [used.runToHalt_add, ← same, finished] at all
  cases all
  have oneVm : one.vm = vm := by
    rcases kept with ⟨code, _, same⟩ | ⟨_, same, _⟩
    · cases same
      rfl
    · cases same
      rfl
  have otherVm : other.vm = vm := by
    rcases wholeKept with ⟨code, _, same⟩ | ⟨_, same, _⟩
    · cases same
      rfl
    · cases same
      rfl
  exact oneVm.trans otherVm.symm

/-- From an agreement on, runs keep it exactly under the condition. -/
theorem Handle.agrees_iff_along {host : Host} {handle : Handle}
    {calls : List ApiCall} (runs : ∀ call ∈ calls, call.runs)
    (real : handle.vm.TrapsReal) (agrees : LastTrapAgrees (some handle)) :
    Everywhere (apiCall host) LastTrapAgrees calls (some handle) ↔
      Along (apiCall host) (KeepsLastTrap host) calls (some handle) := by
  have preserved : ∀ request pointer reply final, ApiCall.runs request →
      (∃ handle, pointer = some handle ∧ handle.vm.TrapsReal) →
        apiCall host request pointer = .ok (reply, final) →
          ∃ handle, final = some handle ∧ handle.vm.TrapsReal := by
    intro request pointer reply final _ sound answered
    obtain ⟨handle, rfl, real⟩ := sound
    exact vm_invariant (fun _ _ loads => loads.trapsReal)
      (fun _ _ _ real stepped => real.step stepped) real answered
  apply everywhere_iff_along preserved ?_ ?_ runs ⟨handle, rfl, real⟩ agrees
  · intro request pointer reply final runs sound agrees answered
    obtain ⟨handle, rfl, real⟩ := sound
    exact keepsLastTrap_iff runs real agrees answered
  · intro request pointer reason _ sound stuck
    obtain ⟨handle, rfl, _⟩ := sound
    exact keepsLastTrap_of_stuck stuck

/-- After a load the two records agree, and each run of the program keeps
them so exactly under the condition. -/
theorem lastTrapFaithful {host : Host} {content path : Option Text}
    {before handle : Handle} {calls : List ApiCall}
    (loaded : t81vmLoadFile content path (some before) =
      (.status kStatusOk, some handle))
    (runs : ∀ call ∈ calls, call.runs) :
    LastTrapFaithful host handle calls := by
  rcases Handle.t81vmLoadFile_cases loaded with ⟨refused, _⟩ |
    ⟨_, program, vm, image, same⟩
  · exact absurd rfl refused
  cases same
  have loads : Interpreter.Loads program vm := ⟨before.vm, image⟩
  have real : vm.TrapsReal := loads.trapsReal
  have agrees : LastTrapAgrees (some { vm, lastTrap := 0 }) := by
    obtain ⟨policy, same⟩ := loads.state_eq
    have clear : vm.state.lastTrapPayload = none := by rw [same]; rfl
    exact (Interpreter.recordedStatus_of_none clear).symm
  -- A longer run that meets the condition still ends in agreement.
  have extended : ∀ more : List ApiCall, (∀ call ∈ more, call.runs) →
      ∀ replies final, run (apiCall host) (calls ++ more)
          (some { vm, lastTrap := 0 }) = .ok (replies, final) →
        Along (apiCall host) (KeepsLastTrap host) (calls ++ more)
          (some { vm, lastTrap := 0 }) → LastTrapAgrees final := by
    intro more moreRuns replies final finished along
    refine Everywhere.final ((Handle.agrees_iff_along ?_ real agrees).mpr
      along) finished
    intro call member
    rcases List.mem_append.mp member with member | member
    · exact runs call member
    · exact moreRuns call member
  refine ⟨Handle.agrees_iff_along runs real agrees, ?_⟩
  intro m n replies last middle slices one reply other finished used sliced
    whole
  have machines := Handle.vm_of_slices used sliced whole
  refine ⟨machines, fun slicedAlong wholeAlong => ?_⟩
  have oneAgrees : LastTrapAgrees (some one) :=
    extended [.runToHalt m, .runToHalt n] (by simp [ApiCall.runs]) _ _
      (run_append_eq_ok.mpr ⟨_, _, _, finished, sliced, rfl⟩) slicedAlong
  have ended : run (apiCall host) [.runToHalt (m + n)] (some last) =
      .ok ([reply], some other) :=
    run_cons_eq_ok.mpr ⟨reply, some other, [], whole, rfl, rfl⟩
  have otherAgrees : LastTrapAgrees (some other) :=
    extended [.runToHalt (m + n)] (by simp [ApiCall.runs]) _ _
      (run_append_eq_ok.mpr ⟨_, _, _, finished, ended, rfl⟩) wholeAlong
  calc
    t81vmLastTrap (some one) = recordedStatus one.vm := oneAgrees
    _ = recordedStatus other.vm := by rw [machines]
    _ = t81vmLastTrap (some other) := otherAgrees.symm

/-- One instruction, and a halt behind it. -/
def nopThenHalt : Program where
  insns := [
    { opcode := .nop, a := 0, b := 0, c := 0 },
    { opcode := .halt, a := 0, b := 0, c := 0 }]
  axionPolicyText := []
  fits := by decide

theorem load_nopThenHalt :
    loadProgramFromFile (some (text "NOP 0 0 0\nHALT 0 0 0"))
        (text "halt.t81") =
      .ok { ok := true, format := .textV1, program := nopThenHalt } := by
  decide

theorem loadFile_nopThenHalt :
    t81vmLoadFile (some (text "NOP 0 0 0\nHALT 0 0 0"))
        (some (text "halt.t81")) (some t81vmCreate) =
      (.status kStatusOk,
        some { vm := Interpreter.freshlyLoaded nopThenHalt }) := by
  rw [t81vmLoadFile]
  simp only [load_nopThenHalt]
  rfl

theorem lastTrapFaithful_nopThenHalt :
    ∃ handle, t81vmLoadFile (some (text "NOP 0 0 0\nHALT 0 0 0"))
        (some (text "halt.t81")) (some t81vmCreate) =
          (.status kStatusOk, some handle) ∧
      LastTrapFaithful strictHost handle [.step, .runToHalt 5] :=
  ⟨_, loadFile_nopThenHalt,
    lastTrapFaithful loadFile_nopThenHalt (by simp [ApiCall.runs])⟩

/-- Two slices of one step each reach the halt, and the handle still reports
the trap of the used budget while the machine has none on record. -/
theorem not_lastTrapAgrees_nopThenHalt :
    ¬ ∀ host content path before handle calls replies final,
      t81vmLoadFile content path (some before) =
        (.status kStatusOk, some handle) →
      (∀ call ∈ calls, call.runs) →
      run (apiCall host) calls (some handle) = .ok (replies, some final) →
        LastTrapAgrees (some final) := by
  intro agrees
  obtain ⟨final, finished, status, clear⟩ : ∃ final,
      run (apiCall strictHost) [.runToHalt 1, .runToHalt 1]
          (some { vm := Interpreter.freshlyLoaded nopThenHalt }) =
        .ok ([.status 8, .status kStatusOk], some final) ∧
      t81vmLastTrap (some final) = 8 ∧
      recordedStatus final.vm = 0 :=
    ⟨{ vm := _, lastTrap := 8 }, rfl, rfl, rfl⟩
  have same := agrees strictHost _ _ _ _ [.runToHalt 1, .runToHalt 1] _
    final loadFile_nopThenHalt (by simp [ApiCall.runs]) finished
  rw [LastTrapAgrees, status, clear] at same
  exact absurd same (by decide)

end T81VM.VM
