import T81VM.ProgramIo.Loaders
import T81VM.VM.DecodeFaults
import T81VM.VM.TrapRecord

/-!
# The C interface

`t81vm_handle` and the functions that drive it, on pointers that may be null.
The handle keeps the last trap beside the machine, and `t81vm_step` returns
trap codes and status constants in one `int`.
-/

namespace T81VM.VM

open Tisc PartialSystem ProgramIo

/-- `t81vm_handle`.  A handle is only given out with a machine in it. -/
structure Handle where
  vm : Interpreter := {}
  lastTrap : Int32 := 0

def kStatusOk : Int32 := 0
def kStatusHalted : Int32 := 1
def kStatusInvalidArg : Int32 := -1
def kStatusParseFault : Int32 := -2

/-- `static_cast<int>` of a trap. -/
def trapToStatus : Trap → Int32
  | .none => 0
  | .decodeFault => 1
  | .typeFault => 2
  | .boundsFault => 3
  | .stackFault => 4
  | .divisionFault => 5
  | .securityFault => 6
  | .shapeFault => 7
  | .trapInstruction => 8

def t81vmCreate : Handle := {}

/-- The status a call returns, unless an exception passes through it. -/
inductive ApiReply where
  | status (code : Int32)
  | threw (raised : StdException)
  deriving DecidableEq

/-- `t81vm_load_file`, for the content of the file at the path. -/
def t81vmLoadFile (content path : Option Text) :
    Option Handle → ApiReply × Option Handle
  | none => (.status kStatusInvalidArg, none)
  | some handle =>
      match path with
      | none => (.status kStatusInvalidArg, some handle)
      | some path =>
          match loadProgramFromFile content path with
          | .error raised => (.threw raised, some handle)
          | .ok loaded =>
              if loaded.ok = false then
                (.status kStatusParseFault,
                  some { handle with lastTrap := trapToStatus .decodeFault })
              else
                match handle.vm.loadProgram loaded.program with
                | .error raised => (.threw raised, some handle)
                | .ok vm =>
                    (.status kStatusOk,
                      some { vm, lastTrap := trapToStatus .none })

/-- What the handle keeps of a trap, and what the call returns for it. -/
def Handle.trapped (handle : Handle) (vm : Interpreter) (code : Trap) :
    Int32 × Option Handle :=
  (trapToStatus code, some { handle with vm, lastTrap := trapToStatus code })

def t81vmStep (host : Host) :
    Option Handle → Except Stuck (Int32 × Option Handle)
  | none => .ok (kStatusInvalidArg, none)
  | some handle => do
      let (result, vm) ← handle.vm.step host
      match result with
      | .error code => return handle.trapped vm code
      | .ok () =>
          if vm.state.halted then
            return (kStatusHalted, some { handle with vm })
          else
            return (kStatusOk, some { handle with vm })

def t81vmRunToHalt (host : Host) (maxSteps : Nat) :
    Option Handle → Except Stuck (Int32 × Option Handle)
  | none => .ok (kStatusInvalidArg, none)
  | some handle => do
      let (result, vm) ← Interpreter.runToHalt host maxSteps handle.vm
      match result with
      | .error code => return handle.trapped vm code
      | .ok () => return (kStatusOk, some { handle with vm })

def t81vmLastTrap : Option Handle → Int32
  | none => kStatusInvalidArg
  | some handle => handle.lastTrap

def t81vmHalted : Option Handle → Int32
  | none => 0
  | some handle => if handle.vm.state.halted then 1 else 0

/-! ## Sequences of calls -/

/-- A call that drives a handle; a load finds some content at its path. -/
inductive ApiCall where
  | loadFile (content path : Option Text)
  | step
  | runToHalt (maxSteps : Nat)

/-- The call runs the loaded program. -/
def ApiCall.runs : ApiCall → Prop
  | .loadFile .. => False
  | .step | .runToHalt _ => True

/-- Answer one call. -/
def apiCall (host : Host) : ApiCall → Option Handle →
    Except Stuck (ApiReply × Option Handle)
  | .loadFile content path, pointer => .ok (t81vmLoadFile content path pointer)
  | .step, pointer => do
      let (code, pointer) ← t81vmStep host pointer
      return (.status code, pointer)
  | .runToHalt maxSteps, pointer => do
      let (code, pointer) ← t81vmRunToHalt host maxSteps pointer
      return (.status code, pointer)

theorem apiCall_loadFile {host : Host} {content path : Option Text}
    {pointer : Option Handle} :
    apiCall host (.loadFile content path) pointer =
      .ok (t81vmLoadFile content path pointer) := rfl

theorem apiCall_step {host : Host} {pointer : Option Handle} :
    apiCall host .step pointer =
      t81vmStep host pointer >>= fun answer =>
        .ok (.status answer.1, answer.2) := rfl

theorem apiCall_runToHalt {host : Host} {maxSteps : Nat}
    {pointer : Option Handle} :
    apiCall host (.runToHalt maxSteps) pointer =
      t81vmRunToHalt host maxSteps pointer >>= fun answer =>
        .ok (.status answer.1, answer.2) := rfl

/-- A handle that calls lead to from a new one. -/
def HandleReached (host : Host) (handle : Handle) : Prop :=
  ∃ calls replies, run (apiCall host) calls (some t81vmCreate) =
    .ok (replies, some handle)

theorem trapToStatus_inj {one other : Trap}
    (same : trapToStatus one = trapToStatus other) : one = other := by
  cases one <;> cases other <;> first | rfl | exact absurd same (by decide)

namespace Handle

variable {host : Host} {handle final : Handle}
  {pointer next : Option Handle} {reply : ApiReply} {status : Int32}

/-- A trap sets both answers; a success tells whether the machine halted. -/
theorem t81vmStep_eq_ok :
    t81vmStep host (some handle) = .ok (status, pointer) ↔
      ∃ result vm, handle.vm.step host = .ok (result, vm) ∧
        ((∃ code, result = .error code ∧
            (status, pointer) = handle.trapped vm code) ∨
          (result = .ok () ∧ pointer = some { handle with vm } ∧
            status =
              if vm.state.halted then kStatusHalted else kStatusOk)) := by
  rw [t81vmStep, bind_eq_ok]
  constructor
  · intro returned
    obtain ⟨⟨result, vm⟩, stepped, rest⟩ := returned
    refine ⟨result, vm, stepped, ?_⟩
    cases result with
    | error code => exact .inl ⟨code, rfl, (Except.ok.inj rest).symm⟩
    | ok success =>
        refine .inr ⟨rfl, ?_⟩
        cases halted : vm.state.halted <;>
          simp only [halted, if_true, Bool.false_eq_true, if_false] at rest <;>
          cases rest <;> exact ⟨rfl, rfl⟩
  · intro answered
    obtain ⟨result, vm, stepped, rest⟩ := answered
    refine ⟨(result, vm), stepped, ?_⟩
    rcases rest with ⟨code, rfl, same⟩ | ⟨rfl, rfl, rfl⟩
    · exact congrArg Except.ok same.symm
    · cases halted : vm.state.halted <;>
        simp only [halted, if_true, Bool.false_eq_true, if_false] <;> rfl

/-- A step that the machine answers is answered. -/
theorem t81vmStep_returns {result : Expected} {vm : Interpreter}
    (stepped : handle.vm.step host = .ok (result, vm)) :
    ∃ answer, t81vmStep host (some handle) = .ok answer := by
  cases result with
  | error code =>
      exact ⟨_, t81vmStep_eq_ok.mpr ⟨_, vm, stepped, .inl ⟨code, rfl, rfl⟩⟩⟩
  | ok success =>
      exact ⟨_, t81vmStep_eq_ok.mpr ⟨_, vm, stepped, .inr ⟨rfl, rfl, rfl⟩⟩⟩

theorem t81vmRunToHalt_eq_ok {maxSteps : Nat} :
    t81vmRunToHalt host maxSteps (some handle) = .ok (status, pointer) ↔
      ∃ result vm,
        Interpreter.runToHalt host maxSteps handle.vm = .ok (result, vm) ∧
        ((∃ code, result = .error code ∧
            (status, pointer) = handle.trapped vm code) ∨
          (result = .ok () ∧ pointer = some { handle with vm } ∧
            status = kStatusOk)) := by
  rw [t81vmRunToHalt, bind_eq_ok]
  constructor
  · intro returned
    obtain ⟨⟨result, vm⟩, finished, rest⟩ := returned
    refine ⟨result, vm, finished, ?_⟩
    cases result with
    | error code => exact .inl ⟨code, rfl, (Except.ok.inj rest).symm⟩
    | ok success =>
        cases rest
        exact .inr ⟨rfl, rfl, rfl⟩
  · intro answered
    obtain ⟨result, vm, finished, rest⟩ := answered
    refine ⟨(result, vm), finished, ?_⟩
    rcases rest with ⟨code, rfl, same⟩ | ⟨rfl, rfl, rfl⟩
    · exact congrArg Except.ok same.symm
    · rfl

/-- A loop that the machine answers is answered. -/
theorem t81vmRunToHalt_returns {maxSteps : Nat} {result : Expected}
    {vm : Interpreter}
    (finished : Interpreter.runToHalt host maxSteps handle.vm =
      .ok (result, vm)) :
    ∃ answer, t81vmRunToHalt host maxSteps (some handle) = .ok answer := by
  cases result with
  | error code =>
      exact ⟨_, t81vmRunToHalt_eq_ok.mpr ⟨_, vm, finished,
        .inl ⟨code, rfl, rfl⟩⟩⟩
  | ok success =>
      exact ⟨_, t81vmRunToHalt_eq_ok.mpr ⟨_, vm, finished,
        .inr ⟨rfl, rfl, rfl⟩⟩⟩

/-- A file is refused, lets an exception through or becomes the program. -/
theorem t81vmLoadFile_cases {content path : Option Text}
    (answered : t81vmLoadFile content path (some handle) = (reply, pointer)) :
    (reply ≠ .status kStatusOk ∧ ∃ lastTrap,
        pointer = some { handle with lastTrap }) ∨
      (reply = .status kStatusOk ∧ ∃ program vm,
        handle.vm.loadProgram program = .ok vm ∧
          pointer = some { vm, lastTrap := trapToStatus .none }) := by
  have invalid : ApiReply.status kStatusInvalidArg ≠ .status kStatusOk := by
    decide
  have unparsed : ApiReply.status kStatusParseFault ≠ .status kStatusOk := by
    decide
  unfold t81vmLoadFile at answered
  cases path with
  | none =>
      cases answered
      exact .inl ⟨invalid, handle.lastTrap, rfl⟩
  | some path =>
      cases result : loadProgramFromFile content path with
      | error raised =>
          simp only [result] at answered
          cases answered
          exact .inl ⟨by simp, handle.lastTrap, rfl⟩
      | ok loaded =>
          simp only [result] at answered
          by_cases refused : loaded.ok = false
          · rw [if_pos refused] at answered
            cases answered
            exact .inl ⟨unparsed, _, rfl⟩
          · rw [if_neg refused] at answered
            cases image : handle.vm.loadProgram loaded.program with
            | error raised =>
                simp only [image] at answered
                cases answered
                exact .inl ⟨by simp, handle.lastTrap, rfl⟩
            | ok vm =>
                simp only [image] at answered
                cases answered
                exact .inr ⟨rfl, loaded.program, vm, image, rfl⟩

theorem apiCall_loadFile_eq_ok {content path : Option Text} :
    apiCall host (.loadFile content path) pointer = .ok (reply, next) ↔
      t81vmLoadFile content path pointer = (reply, next) := by
  rw [apiCall_loadFile, Except.ok.injEq]

theorem apiCall_step_eq_ok :
    apiCall host .step pointer = .ok (reply, next) ↔
      ∃ status, t81vmStep host pointer = .ok (status, next) ∧
        reply = .status status := by
  rw [apiCall_step, bind_eq_ok]
  constructor
  · intro answered
    obtain ⟨⟨status, last⟩, returned, same⟩ := answered
    cases same
    exact ⟨status, returned, rfl⟩
  · intro returned
    obtain ⟨status, returned, rfl⟩ := returned
    exact ⟨(status, next), returned, rfl⟩

theorem apiCall_runToHalt_eq_ok {maxSteps : Nat} :
    apiCall host (.runToHalt maxSteps) pointer = .ok (reply, next) ↔
      ∃ status, t81vmRunToHalt host maxSteps pointer = .ok (status, next) ∧
        reply = .status status := by
  rw [apiCall_runToHalt, bind_eq_ok]
  constructor
  · intro answered
    obtain ⟨⟨status, last⟩, returned, same⟩ := answered
    cases same
    exact ⟨status, returned, rfl⟩
  · intro returned
    obtain ⟨status, returned, rfl⟩ := returned
    exact ⟨(status, next), returned, rfl⟩

/-- A step or a loop changes the machine as the interpreter does. -/
theorem vm_of_runs {request : ApiCall} (runs : request.runs)
    (answered : apiCall host request (some handle) = .ok (reply, pointer)) :
    ∃ final, pointer = some final ∧
      ((∃ result, handle.vm.step host = .ok (result, final.vm)) ∨
        ∃ maxSteps result,
          Interpreter.runToHalt host maxSteps handle.vm =
            .ok (result, final.vm)) := by
  cases request with
  | loadFile => exact runs.elim
  | step =>
      rw [apiCall_step_eq_ok] at answered
      obtain ⟨status, returned, _⟩ := answered
      rw [t81vmStep_eq_ok] at returned
      obtain ⟨result, vm, stepped, rest⟩ := returned
      rcases rest with ⟨code, _, same⟩ | ⟨_, rfl, _⟩
      · cases same
        exact ⟨_, rfl, .inl ⟨result, stepped⟩⟩
      · exact ⟨_, rfl, .inl ⟨result, stepped⟩⟩
  | runToHalt maxSteps =>
      rw [apiCall_runToHalt_eq_ok] at answered
      obtain ⟨status, returned, _⟩ := answered
      rw [t81vmRunToHalt_eq_ok] at returned
      obtain ⟨result, vm, finished, rest⟩ := returned
      rcases rest with ⟨code, _, same⟩ | ⟨_, rfl, _⟩
      · cases same
        exact ⟨_, rfl, .inr ⟨maxSteps, result, finished⟩⟩
      · exact ⟨_, rfl, .inr ⟨maxSteps, result, finished⟩⟩

/-- What loads establish and steps preserve holds of every handle reached
from one that has it. -/
theorem vm_invariant {invariant : Interpreter → Prop}
    (loads : ∀ program vm, Interpreter.Loads program vm → invariant vm)
    (steps : ∀ vm result final, invariant vm →
      vm.step host = .ok (result, final) → invariant final)
    {request : ApiCall} (initial : invariant handle.vm)
    (answered : apiCall host request (some handle) = .ok (reply, pointer)) :
    ∃ final, pointer = some final ∧ invariant final.vm := by
  cases request with
  | loadFile content path =>
      rw [apiCall_loadFile_eq_ok] at answered
      rcases t81vmLoadFile_cases answered with
        ⟨_, lastTrap, same⟩ | ⟨_, program, vm, image, same⟩
      · exact ⟨_, same, initial⟩
      · exact ⟨_, same, loads program vm ⟨handle.vm, image⟩⟩
  | step | runToHalt =>
      obtain ⟨final, same, moved⟩ := vm_of_runs (by trivial) answered
      refine ⟨final, same, ?_⟩
      rcases moved with ⟨result, stepped⟩ | ⟨maxSteps, result, finished⟩
      · exact steps handle.vm result final.vm initial stepped
      · exact Interpreter.runToHalt_invariant steps initial finished

end Handle

/-- A null pointer stays null. -/
theorem apiCall_none {host : Host} {request : ApiCall} {reply : ApiReply}
    {next : Option Handle}
    (answered : apiCall host request none = .ok (reply, next)) :
    next = none := by
  cases request <;> cases answered <;> rfl

/-- What a new machine and every load have and steps preserve holds of every
handle reached. -/
theorem HandleReached.invariant {host : Host}
    {invariant : Interpreter → Prop} (fresh : invariant {})
    (loads : ∀ program vm, Interpreter.Loads program vm → invariant vm)
    (steps : ∀ vm result final, invariant vm →
      vm.step host = .ok (result, final) → invariant final)
    {handle : Handle} (reached : HandleReached host handle) :
    invariant handle.vm := by
  obtain ⟨calls, replies, finished⟩ := reached
  refine run_invariant
    (fun pointer => ∀ handle, pointer = some handle → invariant handle.vm)
    (fun _ => True) ?_ (fun _ _ => trivial) ?_ finished handle rfl
  · intro request pointer reply next _ holds answered
    cases pointer with
    | none =>
        rw [apiCall_none answered]
        intro other impossible
        cases impossible
    | some before =>
        obtain ⟨after, same, kept⟩ :=
          Handle.vm_invariant loads steps (holds before rfl) answered
        intro other again
        rw [same] at again
        cases again
        exact kept
  · intro created same
    cases same
    exact fresh

theorem HandleReached.trapsReal {host : Host} {handle : Handle}
    (reached : HandleReached host handle) : handle.vm.TrapsReal := by
  apply reached.invariant
  · constructor
    · intro code impossible
      cases impossible
    · intro payload impossible
      cases impossible
  · intro program vm loads
    exact loads.trapsReal
  · intro vm result final real stepped
    exact real.step stepped

/-! ## The status of a step -/

/-- The status of a step tells what happened in it. -/
structure StatusDecodable (status : Int32) (result : Expected)
    (final : Handle) : Prop where
  halted : status = kStatusHalted ↔ t81vmHalted (some final) = 1
  succeeded : status = kStatusOk ↔
    result = .ok () ∧ final.vm.state.halted = false
  trapped : ∀ code, code ≠ .none →
    (status = trapToStatus code ↔ result = .error code)

/-- The next step neither rests nor halts nor raises the trap whose code is
the status of a halt. -/
structure Distinguished (vm : Interpreter) : Prop where
  running : vm.state.halted = false
  goesOn : ∀ insn, vm.Fetches insn → insn.opcode ≠ .halt
  decodes : ¬ vm.StepDecodeFaults

/-- The steps that are neither rests nor halts nor decode faults. -/
theorem Distinguished.iff_of_step {host : Host} {vm final : Interpreter}
    {result : Expected} (stepped : vm.step host = .ok (result, final)) :
    Distinguished vm ↔
      final.state.halted = false ∧ result ≠ .error .decodeFault := by
  have raises := Interpreter.step_raises result final stepped
  constructor
  · intro distinguished
    refine ⟨?_, fun raised => distinguished.decodes (raises.mp raised)⟩
    cases Interpreter.step_trapRecord stepped with
    | rests => exact distinguished.running
    | traps running => exact running
    | halts fetches opcode => exact absurd opcode (distinguished.goesOn _ fetches)
    | goesOn _ _ running => exact running
  · intro after
    obtain ⟨running, others⟩ := after
    refine ⟨?_, ?_, fun faults => others (raises.mpr faults)⟩
    · by_contra halted
      have rests : vm.state.halted = true := by simpa using halted
      rw [Interpreter.step, if_pos rests] at stepped
      cases stepped
      exact halted running
    · intro insn fetches opcode
      rw [Interpreter.step_of_fetches fetches, Interpreter.execute,
        opcode] at stepped
      cases stepped
      cases running

/-- The status of a trap is decodable unless it is that of a halt. -/
theorem statusDecodable_of_trap {code : Trap} {final : Handle}
    (running : final.vm.state.halted = false) (real : code ≠ .none) :
    StatusDecodable (trapToStatus code) (.error code) final ↔
      code ≠ .decodeFault := by
  have unhalted : t81vmHalted (some final) = 0 := by
    rw [t81vmHalted, running]
    rfl
  constructor
  · intro decodable same
    subst same
    have halted := decodable.halted.mp rfl
    rw [unhalted] at halted
    exact absurd halted (by decide)
  · intro distinct
    refine ⟨?_, ?_, fun other _ => ?_⟩
    · rw [unhalted]
      refine iff_of_false (fun same => distinct ?_) (by decide)
      have codes : trapToStatus code = trapToStatus .decodeFault := same
      exact trapToStatus_inj codes
    · refine iff_of_false (fun same => real ?_) (by simp)
      have codes : trapToStatus code = trapToStatus .none := same
      exact trapToStatus_inj codes
    · constructor
      · intro same
        exact congrArg Except.error (trapToStatus_inj same)
      · intro same
        exact congrArg trapToStatus (Except.error.inj same)

/-- The status of a success is decodable unless it is that of a halt. -/
theorem statusDecodable_of_success {final : Handle} :
    StatusDecodable
        (if final.vm.state.halted then kStatusHalted else kStatusOk)
        (.ok ()) final ↔
      final.vm.state.halted = false := by
  cases halted : final.vm.state.halted with
  | true =>
      refine iff_of_false (fun decodable => ?_) (by decide)
      have trapped := (decodable.trapped .decodeFault (by decide)).mp rfl
      cases trapped
  | false =>
      refine iff_of_true ⟨?_, ?_, fun code real => ?_⟩ rfl
      · rw [t81vmHalted, halted]
        exact iff_of_false (by decide) (by decide)
      · exact iff_of_true rfl ⟨rfl, halted⟩
      · refine iff_of_false (fun same => real ?_) (by simp)
        exact trapToStatus_inj same.symm

/-- A status is decodable exactly when it is not the one that a halt and a
decode fault share. -/
theorem statusDecodable_iff {host : Host} {handle final : Handle}
    {status : Int32} (reached : HandleReached host handle)
    (returned : t81vmStep host (some handle) = .ok (status, some final)) :
    ∃ result, handle.vm.step host = .ok (result, final.vm) ∧
      (StatusDecodable status result final ↔ Distinguished handle.vm) := by
  have real := reached.trapsReal
  obtain ⟨result, vm, stepped, rest⟩ := Handle.t81vmStep_eq_ok.mp returned
  have distinguished := Distinguished.iff_of_step stepped
  rcases rest with ⟨code, rfl, same⟩ | ⟨rfl, same, named⟩
  · cases same
    have running := Interpreter.running_of_step stepped
    refine ⟨_, stepped, ?_⟩
    rw [distinguished, statusDecodable_of_trap running
      (real.code_ne_none stepped)]
    simp [running]
  · cases same
    refine ⟨_, stepped, ?_⟩
    rw [distinguished, named]
    have decodable := @statusDecodable_of_success { handle with vm }
    constructor
    · intro known
      exact ⟨decodable.mp known, by simp⟩
    · intro known
      exact decodable.mpr known.1

/-- A new handle that loaded a file without a policy tier. -/
theorem handleReached_of_file {host : Host} {content path : Text}
    {loaded : ProgramLoadResult}
    (parsed : loadProgramFromFile (some content) path = .ok loaded)
    (accepted : loaded.ok = true)
    (plain : loaded.program.axionPolicyText = []) :
    HandleReached host { vm := Interpreter.freshlyLoaded loaded.program } := by
  have image : ({} : Interpreter).loadProgram loaded.program =
      .ok (Interpreter.freshlyLoaded loaded.program) :=
    Interpreter.loadProgram_eq_ok.mpr ⟨none, plain ▸ parsePolicy_nil, rfl⟩
  have answered : t81vmLoadFile (some content) (some path)
      (some t81vmCreate) = (.status kStatusOk,
        some { vm := Interpreter.freshlyLoaded loaded.program }) := by
    have created : t81vmCreate.vm = {} := rfl
    simp only [t81vmLoadFile, parsed, accepted, created, image,
      Bool.true_eq_false, if_false]
    rfl
  refine ⟨[.loadFile (some content) (some path)], [.status kStatusOk], ?_⟩
  exact run_cons_eq_ok.mpr ⟨_, _, [],
    Handle.apiCall_loadFile_eq_ok.mpr answered, rfl, rfl⟩

/-- Release a block where none was allocated. -/
def freesNothing : Program where
  insns := [{ opcode := .heapFree, a := 0, b := 1, c := 0 }]
  axionPolicyText := []
  fits := by decide

theorem load_freesNothing :
    loadProgramFromFile (some (text "HEAPFREE 0 1 0")) (text "free.t81") =
      .ok { ok := true, format := .textV1, program := freesNothing } := by
  decide

theorem statusDecodable_iff_freesNothing :
    ∃ final, t81vmStep strictHost
        (some { vm := Interpreter.freshlyLoaded freesNothing }) =
          .ok (1, some final) ∧
      ∃ result, (Interpreter.freshlyLoaded freesNothing).step strictHost =
          .ok (result, final.vm) ∧
        (StatusDecodable 1 result final ↔
          Distinguished (Interpreter.freshlyLoaded freesNothing)) := by
  have returned : t81vmStep strictHost
      (some { vm := Interpreter.freshlyLoaded freesNothing }) =
        .ok (1, some { vm := _, lastTrap := 1 }) := rfl
  exact ⟨_, returned, statusDecodable_iff
    (handleReached_of_file load_freesNothing rfl rfl) returned⟩

/-- The step raises a decode fault, its status says that the machine halted,
and the machine has not. -/
theorem not_statusDecodable_freesNothing :
    ¬ ∀ host handle status result final, HandleReached host handle →
      t81vmStep host (some handle) = .ok (status, some final) →
      handle.vm.step host = .ok (result, final.vm) →
        StatusDecodable status result final := by
  intro decodable
  obtain ⟨final, returned, stepped, running⟩ : ∃ final,
      t81vmStep strictHost
          (some { vm := Interpreter.freshlyLoaded freesNothing }) =
        .ok (kStatusHalted, some final) ∧
      (Interpreter.freshlyLoaded freesNothing).step strictHost =
        .ok (.error .decodeFault, final.vm) ∧
      t81vmHalted (some final) = 0 :=
    ⟨{ vm := _, lastTrap := 1 }, rfl, rfl, rfl⟩
  have halted := (decodable strictHost _ kStatusHalted _ final
    (handleReached_of_file load_freesNothing rfl rfl) returned
    stepped).halted.mp rfl
  rw [running] at halted
  exact absurd halted (by decide)

end T81VM.VM
