import T81VM.VM.CApi
import T81VM.VM.TraceCompleteness
import T81VM.VM.TraceText

/-!
# Clients of the C interface

The readers of `t81vm_handle`, and two clients.  One polls the trace while it
drives the machine and sees each entry once.  The other loads a file and runs
it to the end, and reads what the command prints for the same file.
-/

namespace T81VM.VM

open Tisc PartialSystem ProgramIo

/-! ## The readers -/

/-- `t81vm_trace_entry`. -/
structure ApiTraceEntry where
  pc : Nat := 0
  opcode : UInt8 := 0
  trap : Int32 := 0
  deriving DecidableEq

def t81vmPc : Option Handle → Nat
  | none => 0
  | some handle => handle.vm.state.pc

def t81vmStateHash : Option Handle → UInt64
  | none => 0
  | some handle => stateHash handle.vm.state

def t81vmRegister (index : Nat) : Option Handle → Int64
  | none => 0
  | some handle =>
      if inRange : index < 243 then handle.vm.state.registers ⟨index, inRange⟩
      else 0

def t81vmTraceLen : Option Handle → Nat
  | none => 0
  | some handle => handle.vm.state.trace.length

/-- What `t81vm_trace_get` writes for an entry. -/
def apiTraceEntry (entry : TraceEntry) : ApiTraceEntry where
  pc := entry.pc
  opcode := UInt8.ofNat entry.opcode.ordinal
  trap :=
    match entry.trap with
    | some trap => trapToStatus trap
    | none => -1

/-- `t81vm_trace_get`, for what its last argument points to. -/
def t81vmTraceGet (index : Nat) (out : Option ApiTraceEntry) :
    Option Handle → Int32 × Option ApiTraceEntry
  | none => (kStatusInvalidArg, out)
  | some handle =>
      match out, handle.vm.state.trace[index]? with
      | some _, some entry => (kStatusOk, some (apiTraceEntry entry))
      | _, _ => (kStatusInvalidArg, out)

/-! ## Reading the trace -/

/-- The entry that a client finds at an index. -/
def readEntry (pointer : Option Handle) (index : Nat) :
    Option ApiTraceEntry :=
  let (status, out) := t81vmTraceGet index (some {}) pointer
  if status = kStatusOk then out else none

/-- Read the entries from the cursor up to the length of the trace. -/
def poll (cursor : Nat) (pointer : Option Handle) : List ApiTraceEntry :=
  (List.range' cursor (t81vmTraceLen pointer - cursor)).filterMap
    (readEntry pointer)

/-- Make the calls, polling after each. -/
def watch (host : Host) : List ApiCall → Nat → Option Handle →
    Except Stuck (List ApiTraceEntry × Option Handle)
  | [], _, pointer => .ok ([], pointer)
  | request :: requests, cursor, pointer => do
      let (_, next) ← apiCall host request pointer
      let (later, final) ← watch host requests (t81vmTraceLen next) next
      return (poll cursor next ++ later, final)

variable {host : Host} {handle : Handle} {pointer next : Option Handle}

theorem readEntry_eq (handle : Handle) (index : Nat) :
    readEntry (some handle) index =
      handle.vm.state.trace[index]?.map apiTraceEntry := by
  cases found : handle.vm.state.trace[index]? with
  | none => simp [readEntry, t81vmTraceGet, found, kStatusInvalidArg, kStatusOk]
  | some entry => simp [readEntry, t81vmTraceGet, found]

/-- The positions of a list from a cursor on, read one by one. -/
theorem filterMap_range'_getElem? {α β : Type} (list : List α) (view : α → β)
    (cursor : Nat) :
    (List.range' cursor (list.length - cursor)).filterMap
        (fun index => list[index]?.map view) =
      (list.drop cursor).map view := by
  generalize left : list.length - cursor = count
  induction count generalizing cursor with
  | zero =>
      have behind : list.length ≤ cursor := Nat.sub_eq_zero_iff_le.mp left
      rw [List.drop_of_length_le behind]
      rfl
  | succ count induction =>
      have inside : cursor < list.length := by omega
      have found : list[cursor]? = some list[cursor] :=
        List.getElem?_eq_getElem inside
      have rest := induction (cursor + 1) (by omega)
      rw [List.range'_succ, List.drop_eq_getElem_cons inside, List.map_cons]
      simp only [List.filterMap_cons, found, Option.map_some, rest]

/-- A poll reads the entries behind the cursor. -/
theorem poll_eq (cursor : Nat) (handle : Handle) :
    poll cursor (some handle) =
      (handle.vm.state.trace.drop cursor).map apiTraceEntry := by
  have reads : readEntry (some handle) = fun index =>
      handle.vm.state.trace[index]?.map apiTraceEntry :=
    funext fun index => readEntry_eq handle index
  rw [poll, reads]
  exact filterMap_range'_getElem? _ _ _

/-- A step or a loop takes nothing from the trace. -/
theorem trace_isPrefix_of_runs {request : ApiCall} {reply : ApiReply}
    (runs : request.runs)
    (answered : apiCall host request (some handle) = .ok (reply, next)) :
    ∃ final, next = some final ∧
      handle.vm.state.trace <+: final.vm.state.trace := by
  obtain ⟨final, same, moved⟩ := Handle.vm_of_runs runs answered
  refine ⟨final, same, ?_⟩
  rcases moved with ⟨result, stepped⟩ | ⟨maxSteps, result, finished⟩
  · exact Interpreter.trace_isPrefix_of_step stepped
  · have grows : ∀ (vm : Interpreter) (result : Expected)
        (after : Interpreter), handle.vm.state.trace <+: vm.state.trace →
          vm.step host = .ok (result, after) →
            handle.vm.state.trace <+: after.state.trace := by
      intro vm result after grown stepped
      exact grown.trans (Interpreter.trace_isPrefix_of_step stepped)
    exact Interpreter.runToHalt_invariant grows (List.prefix_refl _) finished

/-- A client that polls sees the entries that are added, each one once. -/
theorem watch_eq_ok {requests : List ApiCall} {seen : List ApiTraceEntry}
    (runs : ∀ request ∈ requests, request.runs)
    (watched : watch host requests (t81vmTraceLen (some handle))
      (some handle) = .ok (seen, pointer)) :
    ∃ final, pointer = some final ∧
      final.vm.state.trace.map apiTraceEntry =
        handle.vm.state.trace.map apiTraceEntry ++ seen := by
  induction requests generalizing handle seen with
  | nil =>
      cases watched
      exact ⟨handle, rfl, (List.append_nil _).symm⟩
  | cons request requests induction =>
      obtain ⟨⟨reply, next⟩, answered, watched⟩ := bind_eq_ok.mp watched
      obtain ⟨⟨later, last⟩, rest, same⟩ := bind_eq_ok.mp watched
      cases same
      obtain ⟨here, others⟩ := List.forall_mem_cons.mp runs
      obtain ⟨middle, rfl, added, grown⟩ := trace_isPrefix_of_runs here answered
      obtain ⟨final, reached, whole⟩ := induction others rest
      refine ⟨final, reached, ?_⟩
      have length : t81vmTraceLen (some handle) =
          handle.vm.state.trace.length := rfl
      rw [whole, poll_eq, length, ← grown, List.drop_left, List.map_append,
        List.append_assoc]

/-- A client that loads a file, drives the machine and polls after each call
sees the whole trace in order, with no entry lost or read twice. -/
theorem watch_complete {content path : Option Text} {start : Option Handle}
    {requests : List ApiCall} {seen : List ApiTraceEntry}
    (loaded : t81vmLoadFile content path start =
      (.status kStatusOk, pointer))
    (runs : ∀ request ∈ requests, request.runs)
    (watched : watch host requests 0 pointer = .ok (seen, next)) :
    ∃ final, next = some final ∧
      seen = final.vm.state.trace.map apiTraceEntry := by
  cases start with
  | none => cases loaded
  | some handle =>
      rcases Handle.t81vmLoadFile_cases loaded with
        ⟨refused, _⟩ | ⟨_, program, vm, image, rfl⟩
      · exact absurd rfl refused
      have empty : vm.state.trace = [] := by
        have loads : Interpreter.Loads program vm := ⟨handle.vm, image⟩
        obtain ⟨policy, same⟩ := loads.state_eq
        rw [same]
        rfl
      have length : t81vmTraceLen
          (some { vm, lastTrap := trapToStatus .none }) = 0 := by
        rw [t81vmTraceLen, empty, List.length_nil]
      rw [← length] at watched
      obtain ⟨final, reached, whole⟩ := watch_eq_ok runs watched
      rw [empty, List.map_nil, List.nil_append] at whole
      exact ⟨final, reached, whole.symm⟩

/-- Two steps and a loop over a program that traps. -/
theorem watch_complete_trap :
    ∃ seen next, watch strictHost [.step, .runToHalt 5, .step] 0
        (t81vmLoadFile (some (text "NOP\nTRAP\n")) (some (text "trap.t81"))
          (some t81vmCreate)).2 = .ok (seen, next) ∧
      ∃ final, next = some final ∧
        seen = final.vm.state.trace.map apiTraceEntry := by
  have loaded : t81vmLoadFile (some (text "NOP\nTRAP\n"))
      (some (text "trap.t81")) (some t81vmCreate) =
        (.status kStatusOk, _) := rfl
  have runs : ∀ request ∈ [ApiCall.step, .runToHalt 5, .step],
      request.runs := by
    simp [ApiCall.runs]
  have watched : watch strictHost [.step, .runToHalt 5, .step] 0
      (t81vmLoadFile (some (text "NOP\nTRAP\n")) (some (text "trap.t81"))
        (some t81vmCreate)).2 = .ok (_, _) := rfl
  exact ⟨_, _, watched, watch_complete loaded runs watched⟩

/-! ## The same file on the command line -/

/-- A line of the trace shows the entry that a client reads. -/
def ShowsEntry (line : Text) (shown : ApiTraceEntry) : Prop :=
  ∃ entry : TraceEntry, entry.WritePaired ∧ line = traceLine entry ∧
    shown = apiTraceEntry entry

/-- The calls of a client that runs a file to the end. -/
def clientCalls (files : Text → Option Text) (options : Options) :
    List ApiCall :=
  [.loadFile (files options.programPath) (some options.programPath),
    .runToHalt options.maxSteps]

/-- What the command printed is what the client reads. -/
structure SameView (options : Options) (output : Output) (status : Int32)
    (pointer : Option Handle) : Prop where
  success : output.code = 0 ↔ status = kStatusOk
  fault : ∀ code, code ≠ .none →
    (text "FAULT " ++ code.name ∈ getlines output.err ↔
      status = trapToStatus code)
  lastTrap : t81vmLastTrap pointer = status
  halted : t81vmHalted pointer = 1 ↔ output.code = 0
  trace : options.emitTrace = true ∨ options.emitSnapshot = false →
    List.Forall₂ ShowsEntry
      ((getlines output.out).takeWhile beginsWithDigit) (poll 0 pointer)
  snapshot : options.emitSnapshot = true →
    (∃ line ∈ getlines output.out,
      text "SNAPSHOT pc=" ++ Decimal.natural (t81vmPc pointer)
        ++ text " halted=" ++ Decimal.integer (t81vmHalted pointer).toInt
          <+: line) ∧
    registersLine (fun i => t81vmRegister i pointer) ∈ getlines output.out ∧
    text "STATE_HASH 0x" ++ Hexadecimal.padded 16
      (t81vmStateHash pointer).toNat ∈ getlines output.out

/-! ### The lines of the report -/

variable {files : Text → Option Text} {args : List Text} {options : Options}
  {result : Expected} {final : Interpreter} {output : Output}

/-- A fault line names the trap of a failed run. -/
theorem fault_mem_errLines {code : Trap} {state : State} :
    text "FAULT " ++ code.name ∈ errLines options result state ↔
      result = .error code := by
  have found : ∀ other : Trap, (text "FAULT ").isPrefixOf
      (text "FAULT " ++ other.name) = true := fun _ =>
    List.isPrefixOf_iff_prefix.mpr (List.prefix_append _ _)
  constructor
  · intro member
    have kept := List.mem_filter.mpr ⟨member, found code⟩
    cases result with
    | ok success =>
        rw [errLines, faultLines, List.append_nil,
          grep_markerLines (by decide)] at kept
        cases kept
    | error other =>
        rw [grep_errLines_fault, List.mem_singleton] at kept
        rw [Trap.name_injective (List.append_cancel_left kept)]
  · rintro rfl
    have shown : text "FAULT " ++ code.name ∈
        (errLines options (.error code) state).filter
          (text "FAULT ").isPrefixOf := by
      rw [grep_errLines_fault]
      exact List.mem_singleton_self _
    exact (List.mem_filter.mp shown).1

/-- A session never reports the trap `None`. -/
theorem Session.code_ne_none {code : Trap}
    (session : Session host files args options (.error code) final) :
    code ≠ .none := by
  obtain ⟨program, vm, exit, loads, loops, verdict⟩ := session.loops
  cases exit with
  | halted => cases verdict
  | exhausted =>
      cases verdict
      decide
  | trapped raised =>
      cases verdict
      obtain ⟨state, real, stepped⟩ := @Interpreter.Loops.last_step host vm
        final options.maxSteps Interpreter.TrapsReal code
        (fun _ _ _ real stepped => real.step stepped) loops loads.trapsReal
      exact real.code_ne_none stepped

/-- The status of a finished run. -/
def statusOf : Expected → Int32
  | .ok () => kStatusOk
  | .error code => trapToStatus code

/-- The client gets the machine that the command prints. -/
theorem Session.client_eq
    (session : Session host files args options result final) :
    run (apiCall host) (clientCalls files options) (some t81vmCreate) =
      .ok ([.status kStatusOk, .status (statusOf result)],
        some { vm := final, lastTrap := statusOf result }) := by
  obtain ⟨names, loads, accepted, image, finished⟩ := session
  rename_i loaded vm
  have loadFile : t81vmLoadFile (files options.programPath)
      (some options.programPath) (some t81vmCreate) =
        (.status kStatusOk,
          some { vm, lastTrap := trapToStatus .none }) := by
    simp [t81vmLoadFile, loads, accepted, t81vmCreate, image]
  have runs : t81vmRunToHalt host options.maxSteps
      (some { vm, lastTrap := trapToStatus .none }) =
        .ok (statusOf result,
          some { vm := final, lastTrap := statusOf result }) := by
    apply Handle.t81vmRunToHalt_eq_ok.mpr
    refine ⟨result, final, finished, ?_⟩
    cases result with
    | error code => exact .inl ⟨code, rfl, rfl⟩
    | ok success => exact .inr ⟨rfl, rfl, rfl⟩
  apply run_cons_eq_ok.mpr
  refine ⟨_, _, [.status (statusOf result)],
    Handle.apiCall_loadFile_eq_ok.mpr loadFile, ?_, rfl⟩
  apply run_cons_eq_ok.mpr
  exact ⟨_, _, [], Handle.apiCall_runToHalt_eq_ok.mpr ⟨_, runs, rfl⟩, rfl, rfl⟩

/-- A session ends on a halted machine just when it succeeds. -/
theorem Session.halted_iff
    (session : Session host files args options result final) :
    final.state.halted = true ↔ result = .ok () := by
  obtain ⟨program, vm, exit, loads, loops, rfl⟩ := session.loops
  have fresh : vm.state.halted = false := by
    obtain ⟨policy, same⟩ := loads.state_eq
    rw [same]
    rfl
  cases exit with
  | halted => exact iff_of_true loops.halted_final rfl
  | trapped code =>
      obtain ⟨state, _, stepped⟩ := @Interpreter.Loops.last_step host vm
        final options.maxSteps (fun _ => True) code
        (fun _ _ _ _ _ => trivial) loops trivial
      have running := Interpreter.running_of_step stepped
      exact iff_of_false (by simp [running]) (by simp [LoopExit.verdict])
  | exhausted =>
      have running : final.state.halted = false := by
        by_cases some : 0 < options.maxSteps
        · exact loops.exhausted_final some
        · have none : options.maxSteps = 0 := by omega
          rw [none] at loops
          cases loops
          exact fresh
      exact iff_of_false (by simp [running]) (by simp [LoopExit.verdict])

/-- The lines of the trace in front of a snapshot show the entries that a
client polls. -/
theorem showsEntries (shown : Handle)
    (printable : shown.vm.DetailPrintable)
    (paired : ∀ entry ∈ shown.vm.state.trace, entry.WritePaired)
    (emits : options.emitTrace = true ∨ options.emitSnapshot = false) :
    List.Forall₂ ShowsEntry
      ((getlines (report options result shown.vm.state).out).takeWhile
        beginsWithDigit) (poll 0 (some shown)) := by
  have letters : ∀ line ∈ (if options.emitSnapshot = true then
      snapshotLines shown.vm.state else []).head?,
      beginsWithDigit line = false := by
    split
    · exact beginsWithDigit_snapshotLines shown.vm.state
    · simp
  have traced : (options.emitTrace || !options.emitSnapshot) = true := by
    rcases emits with trace | none
    · simp [trace]
    · simp [none]
  rw [getlines_report_out printable, outLines, if_pos traced,
    takeWhile_traceLines _ _ letters, poll_eq, List.drop_zero,
    List.forall₂_map_left_iff, List.forall₂_map_right_iff, List.forall₂_same]
  exact fun entry member => ⟨entry, paired entry member, rfl, rfl⟩

/-- A snapshot begins with the program counter and the flag that a client
reads. -/
theorem snapshotLine_readers (shown : Handle) :
    text "SNAPSHOT pc=" ++ Decimal.natural (t81vmPc (some shown))
      ++ text " halted=" ++ Decimal.integer (t81vmHalted (some shown)).toInt
        <+: snapshotLine shown.vm.state := by
  have number : Decimal.natural (if shown.vm.state.halted then 1 else 0) =
      Decimal.integer (t81vmHalted (some shown)).toInt := by
    rw [t81vmHalted]
    cases shown.vm.state.halted <;> rfl
  rw [snapshotLine, number]
  simp only [List.append_assoc, List.prefix_append_right_inj, t81vmPc]
  exact List.prefix_append _ _

/-- The registers that a client reads one by one. -/
theorem t81vmRegister_eq (shown : Handle) :
    (fun i : Fin 243 => t81vmRegister i (some shown)) =
      shown.vm.state.registers :=
  funext fun i => by simp [t81vmRegister]

/-- The command and the interface agree: a client that loads the same file
and runs it under the same budget reads what the command prints. -/
theorem client_sameView
    (returned : main host files args = .ok output)
    (session : Session host files args options result final) :
    ∃ status pointer,
      run (apiCall host) (clientCalls files options) (some t81vmCreate) =
        .ok ([.status kStatusOk, .status status], pointer) ∧
      SameView options output status pointer := by
  refine ⟨_, _, session.client_eq, ?_⟩
  have printable := session.detailPrintable
  have paired := session.writesPaired
  have halted := session.halted_iff
  have real : ∀ code, result = .error code → code ≠ .none := by
    rintro code rfl
    exact session.code_ne_none
  rw [session.main_eq] at returned
  cases returned
  have ended : (report options result final.state).code = 0 ↔
      result = .ok () := by
    cases result <;> simp [report]
  constructor
  · rw [ended]
    cases result with
    | ok success => exact iff_of_true rfl rfl
    | error code =>
        refine iff_of_false (by simp) fun same => ?_
        exact real code rfl (trapToStatus_inj same)
  · intro code known
    rw [getlines_report_err, fault_mem_errLines]
    cases result with
    | ok success =>
        refine iff_of_false (by simp) fun same => ?_
        exact known (trapToStatus_inj same.symm)
    | error other =>
        rw [Except.error.injEq]
        exact ⟨fun same => congrArg trapToStatus same, fun same =>
          (trapToStatus_inj same)⟩
  · rfl
  · rw [ended, ← halted, t81vmHalted]
    cases final.state.halted <;> simp
  · exact showsEntries { vm := final, lastTrap := statusOf result }
      printable paired.trace
  · intro emits
    rw [getlines_report_out printable, outLines, if_pos emits]
    have shown : ∀ line ∈ snapshotLines final.state, ∀ front : List Text,
        line ∈ front ++ snapshotLines final.state :=
      fun line member _ => List.mem_append_right _ member
    refine ⟨⟨snapshotLine final.state, shown _ List.mem_cons_self _,
      snapshotLine_readers _⟩, shown _ ?_ _, shown _ ?_ _⟩
    · rw [t81vmRegister_eq]
      exact List.mem_cons_of_mem _ List.mem_cons_self
    · refine List.mem_cons_of_mem _ (List.mem_cons_of_mem _ ?_)
      exact List.mem_append_right _ (List.mem_singleton_self _)

theorem client_sameView_trap :
    ∃ options output status pointer,
      main strictHost (oneFile (text "trap.t81") (text "TRAP\n"))
        [text "--snapshot", text "trap.t81"] = .ok output ∧
      run (apiCall strictHost)
        (clientCalls (oneFile (text "trap.t81") (text "TRAP\n")) options)
        (some t81vmCreate) =
          .ok ([.status kStatusOk, .status status], pointer) ∧
      SameView options output status pointer := by
  have names : Names [text "--snapshot", text "trap.t81"] _ :=
    names_iff.mpr ⟨rfl, by decide⟩
  have session : Session strictHost
      (oneFile (text "trap.t81") (text "TRAP\n"))
      [text "--snapshot", text "trap.t81"] _ _ _ :=
    .intro names rfl rfl rfl rfl
  have returned := session.main_eq
  obtain ⟨status, pointer, answered, same⟩ := client_sameView returned session
  exact ⟨_, _, status, pointer, returned, answered, same⟩

end T81VM.VM
