import T81VM.VM.Faults
import T81VM.VM.Installed

/-!
# The loop of `run_to_halt`

The loop ends when a step traps, when a step leaves the machine halted, or
when its budget is used up.  The first two ends are on record in the state;
the third one is reported as a trap of a `Trap` instruction although none was
executed.
-/

namespace T81VM.VM

open Tisc PartialSystem

/-- How the loop ended. -/
inductive LoopExit where
  | trapped (code : Trap)
  | halted
  | exhausted
  deriving DecidableEq

/-- What `run_to_halt` returns for the end of its loop. -/
def LoopExit.verdict : LoopExit → Expected
  | .trapped code => .error code
  | .halted => .ok ()
  | .exhausted => .error .trapInstruction

/-- The answer to a `step` after which single-stepping is over. -/
def stopsStepping (reply : Reply) (vm : Interpreter) : Bool :=
  match reply with
  | .result (.error _) => true
  | _ => vm.state.halted

namespace Interpreter

variable {host : Host} {program : Program} {vm middle final : Interpreter}
  {insn : Insn} {result : Expected} {exit : LoopExit} {maxSteps : Nat}

/-- The steps of the loop, at most `maxSteps` of them, to its end. -/
inductive Loops (host : Host) :
    Nat → Interpreter → LoopExit → Interpreter → Prop where
  | exhausted {vm : Interpreter} : Loops host 0 vm .exhausted vm
  | trapped {maxSteps : Nat} {vm final : Interpreter} {code : Trap}
      (stepped : vm.step host = .ok (.error code, final)) :
      Loops host (maxSteps + 1) vm (.trapped code) final
  | halted {maxSteps : Nat} {vm final : Interpreter}
      (stepped : vm.step host = .ok (.ok (), final))
      (halts : final.state.halted = true) :
      Loops host (maxSteps + 1) vm .halted final
  | next {maxSteps : Nat} {vm middle final : Interpreter} {exit : LoopExit}
      (stepped : vm.step host = .ok (.ok (), middle))
      (running : middle.state.halted = false)
      (rest : Loops host maxSteps middle exit final) :
      Loops host (maxSteps + 1) vm exit final

/-- `run_to_halt` returns the verdict on the end of its loop. -/
theorem runToHalt_eq_ok_iff_loops :
    runToHalt host maxSteps vm = .ok (result, final) ↔
      ∃ exit, Loops host maxSteps vm exit final ∧ result = exit.verdict := by
  induction maxSteps generalizing vm with
  | zero =>
      constructor
      · intro finished
        cases finished
        exact ⟨.exhausted, .exhausted, rfl⟩
      · rintro ⟨exit, loops, rfl⟩
        cases loops
        rfl
  | succ maxSteps induction =>
      rw [runToHalt_succ_eq_ok]
      constructor
      · rintro ⟨first, middle, stepped, rest⟩
        rcases rest with ⟨code, rfl, same⟩ | ⟨rfl, halts, same⟩ |
          ⟨rfl, running, rest⟩
        · cases same
          exact ⟨.trapped code, .trapped stepped, rfl⟩
        · cases same
          exact ⟨.halted, .halted stepped halts, rfl⟩
        · obtain ⟨exit, loops, verdict⟩ := induction.mp rest
          exact ⟨exit, .next stepped running loops, verdict⟩
      · rintro ⟨exit, loops, rfl⟩
        cases loops with
        | @trapped _ _ _ code stepped =>
            exact ⟨_, final, stepped, .inl ⟨code, rfl, rfl⟩⟩
        | halted stepped halts =>
            exact ⟨_, final, stepped, .inr (.inl ⟨rfl, halts, rfl⟩)⟩
        | next stepped running rest =>
            have finished := induction.mpr ⟨exit, rest, rfl⟩
            exact ⟨_, _, stepped, .inr (.inr ⟨rfl, running, finished⟩)⟩

/-- The loop ends in one way. -/
theorem Loops.unique {other : LoopExit} {last : Interpreter}
    (first : Loops host maxSteps vm exit final)
    (second : Loops host maxSteps vm other last) :
    exit = other ∧ final = last := by
  induction first with
  | exhausted =>
      cases second
      exact ⟨rfl, rfl⟩
  | trapped stepped =>
      cases second with
      | trapped again | halted again | next again =>
          rw [stepped] at again
          cases again
          try exact ⟨rfl, rfl⟩
  | halted stepped halts =>
      cases second with
      | trapped again =>
          rw [stepped] at again
          cases again
      | halted again =>
          rw [stepped] at again
          cases again
          exact ⟨rfl, rfl⟩
      | next again running =>
          rw [stepped] at again
          cases again
          rw [halts] at running
          cases running
  | next stepped running rest induction =>
      cases second with
      | trapped again =>
          rw [stepped] at again
          cases again
      | halted again halts =>
          rw [stepped] at again
          cases again
          rw [halts] at running
          cases running
      | next again _ later =>
          rw [stepped] at again
          cases again
          exact induction later

/-! ## The verdict -/

/-- The last trace entry and the payload carry the trap. -/
structure Recorded (final : Interpreter) (code : Trap) : Prop where
  entry : ∃ entry, final.state.trace.getLast? = some entry ∧
    entry.trap = some code
  payload : ∃ payload, final.state.lastTrapPayload = some payload ∧
    payload.trap = code

/-- The last trace entry is a trap of a `Trap` instruction. -/
def TrapExecuted (program : Program) (final : Interpreter) : Prop :=
  ∃ entry insn, final.state.trace.getLast? = some entry ∧
    entry.trap = some .trapInstruction ∧
    program.insns[entry.pc]? = some insn ∧ insn.opcode = .trap

/-- The verdict is the one on record, for every end of the loop. -/
structure VerdictRecorded (host : Host) (program : Program) (maxSteps : Nat)
    (vm : Interpreter) (result : Expected) (final : Interpreter) : Prop where
  success : result = .ok () ↔ final.state.halted = true
  traps : ∀ code, result = .error code ↔
    Loops host maxSteps vm (.trapped code) final
  recorded : ∀ code, result = .error code → Recorded final code
  instruction : result = .error .trapInstruction → TrapExecuted program final

/-- The verdict is the one on record, unless the budget is used up. -/
structure VerdictOrExhaustion (host : Host) (program : Program)
    (maxSteps : Nat) (vm : Interpreter) (result : Expected)
    (final : Interpreter) : Prop where
  recorded : ¬ Loops host maxSteps vm .exhausted final →
    VerdictRecorded host program maxSteps vm result final
  exhausted : Loops host maxSteps vm .exhausted final →
    result = .error .trapInstruction ∧
      (0 < maxSteps → final.state.halted = false)

/-- Nothing but an executed `Trap` raises its code. -/
structure TrapOpcodeOnly (program : Program) (vm : Interpreter) : Prop
    extends Installed program vm where
  preload : ∀ code, vm.preloadTrap = some code → code = .decodeFault

theorem Loads.trapOpcodeOnly (loads : Loads program vm) :
    TrapOpcodeOnly program vm := by
  refine ⟨loads.installed, fun code preload => ?_⟩
  rw [loads.preloadTrap_eq] at preload
  exact validateInsns_eq_some preload

theorem TrapOpcodeOnly.step (only : TrapOpcodeOnly program vm)
    (stepped : vm.step host = .ok (result, final)) :
    TrapOpcodeOnly program final := by
  refine ⟨only.toInstalled.step stepped, ?_⟩
  cases step_stepped stepped with
  | resting => exact only.preload
  | rejected | overrun =>
      intro code preload
      cases preload
  | executed fetches transition =>
      have none : final.preloadTrap = none :=
        transition.preloadTrap_eq fetches.accepted
      intro code preload
      rw [none] at preload
      cases preload

theorem TrapOpcodeOnly.setRegister {idx : Int32} {value : Int64}
    {tag : ValueTag} (only : TrapOpcodeOnly program vm) :
    TrapOpcodeOnly program (vm.setRegister idx value tag) := by
  refine ⟨only.toInstalled.setRegister, ?_⟩
  unfold Interpreter.setRegister
  split <;> exact only.preload

/-- A step that traps puts the trap on record. -/
theorem recorded_of_step {code : Trap}
    (stepped : vm.step host = .ok (.error code, final)) :
    Recorded final code := by
  cases step_stepped stepped with
  | rejected | overrun =>
      exact ⟨⟨_, List.getLast?_concat, rfl⟩, ⟨_, rfl, rfl⟩⟩
  | executed fetches transition =>
      cases transition with
      | faulted => exact ⟨⟨_, List.getLast?_concat, rfl⟩, ⟨_, rfl, rfl⟩⟩

/-- A step that traps leaves the machine running. -/
theorem running_of_step {code : Trap}
    (stepped : vm.step host = .ok (.error code, final)) :
    final.state.halted = false := by
  cases step_stepped stepped with
  | rejected running | overrun running => exact running
  | executed fetches transition =>
      cases transition with
      | faulted => exact fetches.running

theorem opcode_of_trapInstruction {opcode : Opcode}
    (listed : Trap.trapInstruction ∈ faultCodes opcode) : opcode = .trap := by
  cases opcode with
  | trap => rfl
  | undefined excess =>
      have decode : Trap.trapInstruction ∈ [Trap.decodeFault] := listed
      exact absurd decode (by decide)
  | _ => exact absurd listed (by decide)

/-- Only an executed `Trap` traps with its code. -/
theorem TrapOpcodeOnly.trapExecuted (only : TrapOpcodeOnly program vm)
    (stepped : vm.step host = .ok (.error .trapInstruction, final)) :
    TrapExecuted program final := by
  cases step_stepped stepped with
  | rejected _ preload => cases only.preload _ preload
  | @executed insn answer fetches transition =>
      have executed := stepped
      rw [step_of_fetches fetches] at executed
      have opcode := opcode_of_trapInstruction
        (execute_faultCodes .trapInstruction final executed)
      have fetched := fetches.fetched
      rw [only.program_eq] at fetched
      cases transition with
      | faulted =>
          exact ⟨_, insn, List.getLast?_concat, rfl, fetched, opcode⟩

/-- What steps preserve holds in the state of the loop's last step. -/
theorem Loops.last_step {invariant : Interpreter → Prop} {code : Trap}
    (preserved : ∀ vm result final, invariant vm →
      vm.step host = .ok (result, final) → invariant final)
    (loops : Loops host maxSteps vm (.trapped code) final)
    (initial : invariant vm) :
    ∃ state, invariant state ∧
      state.step host = .ok (.error code, final) := by
  generalize whole : LoopExit.trapped code = exit at loops
  induction loops with
  | exhausted | halted => cases whole
  | @trapped _ vm _ _ stepped =>
      cases whole
      exact ⟨vm, initial, stepped⟩
  | next stepped _ _ induction =>
      exact induction (preserved _ _ _ initial stepped) whole

theorem Loops.halted_final (loops : Loops host maxSteps vm .halted final) :
    final.state.halted = true := by
  generalize whole : LoopExit.halted = exit at loops
  induction loops with
  | exhausted | trapped => cases whole
  | halted stepped halts => exact halts
  | next _ _ _ induction => exact induction whole

/-- A budget that is used up has left the machine running. -/
theorem Loops.exhausted_final (loops : Loops host maxSteps vm .exhausted final)
    (some : 0 < maxSteps) : final.state.halted = false := by
  generalize whole : LoopExit.exhausted = exit at loops
  induction loops with
  | exhausted => cases some
  | trapped | halted => cases whole
  | @next maxSteps _ _ _ _ _ running rest induction =>
      cases maxSteps with
      | zero =>
          cases rest
          exact running
      | succ maxSteps => exact induction (Nat.succ_pos _) whole

/-- The verdict on a loop that traps. -/
theorem Loops.verdict_trapped {code : Trap}
    (loops : Loops host maxSteps vm (.trapped code) final)
    (only : TrapOpcodeOnly program vm) :
    VerdictRecorded host program maxSteps vm (.error code) final := by
  obtain ⟨state, only, stepped⟩ := loops.last_step
    (fun _ _ _ only stepped => only.step stepped) only
  have running := running_of_step stepped
  refine ⟨?_, ?_, ?_, ?_⟩
  · simp [running]
  · intro raised
    constructor
    · intro same
      cases same
      exact loops
    · intro other
      cases (loops.unique other).1
      rfl
  · intro raised same
    cases same
    exact recorded_of_step stepped
  · intro same
    cases same
    exact only.trapExecuted stepped

/-- The verdict on a loop that halts. -/
theorem Loops.verdict_halted (loops : Loops host maxSteps vm .halted final) :
    VerdictRecorded host program maxSteps vm (.ok ()) final := by
  refine ⟨iff_of_true rfl loops.halted_final, ?_, ?_, ?_⟩
  · intro code
    refine iff_of_false (by simp) fun other => ?_
    cases (loops.unique other).1
  · intro code failed
    cases failed
  · intro failed
    cases failed

/-- The verdict is on record unless the budget is used up. -/
theorem verdictOrExhaustion (reached : Reachable host program vm)
    (finished : runToHalt host maxSteps vm = .ok (result, final)) :
    VerdictOrExhaustion host program maxSteps vm result final := by
  obtain ⟨exit, loops, rfl⟩ := runToHalt_eq_ok_iff_loops.mp finished
  have only := reached.invariant (fun _ loads => loads.trapOpcodeOnly)
    (fun _ _ _ only stepped => only.step stepped)
    (fun _ _ _ _ only => only.setRegister)
  constructor
  · intro unexhausted
    cases exit with
    | trapped code => exact loops.verdict_trapped only
    | halted => exact loops.verdict_halted
    | exhausted => exact absurd loops unexhausted
  · intro exhausted
    cases (loops.unique exhausted).1
    exact ⟨rfl, loops.exhausted_final⟩

/-- A `Trap` behind an instruction that neither traps nor halts. -/
def nopThenTrap : Program where
  insns := [
    { opcode := .nop, a := 0, b := 0, c := 0 },
    { opcode := .trap, a := 0, b := 0, c := 0 }]
  axionPolicyText := []
  fits := by decide

theorem reachable_nopThenTrap :
    Reachable strictHost nopThenTrap (freshlyLoaded nopThenTrap) :=
  ⟨_, [], [], loads_freshlyLoaded rfl, by simp, rfl⟩

/-- With a budget of two the trap is on record. -/
theorem verdictOrExhaustion_nopThenTrap :
    ∃ final, runToHalt strictHost 2 (freshlyLoaded nopThenTrap) =
        .ok (.error .trapInstruction, final) ∧
      VerdictOrExhaustion strictHost nopThenTrap 2 (freshlyLoaded nopThenTrap)
        (.error .trapInstruction) final := by
  have finished : runToHalt strictHost 2 (freshlyLoaded nopThenTrap) =
      .ok (.error .trapInstruction, _) := rfl
  exact ⟨_, finished, verdictOrExhaustion reachable_nopThenTrap finished⟩

/-- With a budget of one the same trap is reported before it happens. -/
theorem not_verdictRecorded_nopThenTrap :
    ¬ ∀ host program vm maxSteps result final,
      Reachable host program vm →
      runToHalt host maxSteps vm = .ok (result, final) →
        VerdictRecorded host program maxSteps vm result final := by
  intro recorded
  obtain ⟨final, finished, payload⟩ : ∃ final,
      runToHalt strictHost 1 (freshlyLoaded nopThenTrap) =
        .ok (.error .trapInstruction, final) ∧
      final.state.lastTrapPayload = none := ⟨_, rfl, rfl⟩
  have verdict := recorded strictHost nopThenTrap _ 1 _ final reachable_nopThenTrap
    finished
  obtain ⟨present, same, _⟩ := (verdict.recorded _ rfl).payload
  rw [payload] at same
  cases same

/-! ## Budgets -/

/-- Budgets add up when the first one is used up, and every budget leaves
the state that single-stepping to its first stop leaves. -/
structure BudgetsCompose (host : Host) (vm : Interpreter) : Prop where
  composes : ∀ m n middle, Loops host m vm .exhausted middle →
    runToHalt host m vm = .ok (.error .trapInstruction, middle) ∧
      runToHalt host (m + n) vm = runToHalt host n middle
  stepping : ∀ m, (runToHalt host m vm).map Prod.snd =
    (runUntil (call host) .step stopsStepping m vm).map Prod.snd
  steps : ∀ m replies final,
    runUntil (call host) .step stopsStepping m vm = .ok (replies, final) →
      run (call host) (List.replicate replies.length .step) vm =
          .ok (replies, final) ∧
        replies.length ≤ m

/-- After a budget that is used up, the loop goes on. -/
theorem Loops.runToHalt_add {more : Nat}
    (loops : Loops host maxSteps vm .exhausted middle) :
    runToHalt host (maxSteps + more) vm = runToHalt host more middle := by
  generalize whole : LoopExit.exhausted = exit at loops
  induction loops with
  | exhausted => rw [Nat.zero_add]
  | trapped | halted => cases whole
  | @next maxSteps vm next _ _ stepped running _ induction =>
      rw [← induction whole, Nat.add_right_comm, runToHalt, stepped]
      show (if next.state.halted then _ else _) = _
      rw [running]
      rfl

/-- The loop goes on behind a budget that is used up. -/
theorem Loops.append {more : Nat}
    (loops : Loops host maxSteps vm .exhausted middle)
    (rest : Loops host more middle exit final) :
    Loops host (maxSteps + more) vm exit final := by
  generalize whole : LoopExit.exhausted = used at loops
  induction loops with
  | exhausted =>
      rw [Nat.zero_add]
      exact rest
  | trapped | halted => cases whole
  | next stepped running _ induction =>
      rw [Nat.add_right_comm]
      exact .next stepped running (induction rest whole)

/-- A budget that is used up has used up every smaller one. -/
theorem Loops.exhausted_of_le {fewer : Nat}
    (loops : Loops host maxSteps vm .exhausted final)
    (within : fewer ≤ maxSteps) :
    ∃ earlier, Loops host fewer vm .exhausted earlier := by
  generalize whole : LoopExit.exhausted = used at loops
  induction loops generalizing fewer with
  | exhausted =>
      rw [Nat.le_zero.mp within]
      exact ⟨_, .exhausted⟩
  | trapped | halted => cases whole
  | next stepped running _ induction =>
      cases whole
      cases fewer with
      | zero => exact ⟨_, .exhausted⟩
      | succ fewer =>
          obtain ⟨earlier, rest⟩ :=
            induction (Nat.le_of_succ_le_succ within) rfl
          exact ⟨earlier, .next stepped running rest⟩

/-- A loop of the program comes round from head to head, in rounds of one
length. -/
theorem Loops.rounds {head : Nat → Interpreter → Prop} {length count : Nat}
    (round : ∀ done vm, done < count → head done vm →
      ∃ next, Loops host length vm .exhausted next ∧ head (done + 1) next)
    (start : head 0 vm) :
    ∃ final, Loops host (length * count) vm .exhausted final ∧
      head count final := by
  induction count with
  | zero => exact ⟨vm, .exhausted, start⟩
  | succ count induction =>
      obtain ⟨middle, loops, here⟩ := induction fun done vm before =>
        round done vm (Nat.lt_succ_of_lt before)
      obtain ⟨final, last, there⟩ :=
        round count middle (Nat.lt_succ_self count) here
      exact ⟨final, loops.append last, there⟩

/-- The loop leaves the state that single-stepping leaves. -/
theorem runToHalt_map_snd :
    (runToHalt host maxSteps vm).map Prod.snd =
      (runUntil (call host) .step stopsStepping maxSteps vm).map
        Prod.snd := by
  induction maxSteps generalizing vm with
  | zero => rfl
  | succ maxSteps induction =>
      rw [runToHalt, runUntil, call]
      cases stepped : vm.step host with
      | error stuck => rfl
      | ok answer =>
          obtain ⟨result, next⟩ := answer
          cases result with
          | error code => rfl
          | ok success =>
              cases halted : next.state.halted with
              | true =>
                  simp only [bind, Except.bind, pure, Except.pure,
                    stopsStepping, halted, if_true]
                  rfl
              | false =>
                  have rest := @induction next
                  simp only [bind, Except.bind, pure, Except.pure,
                    stopsStepping, halted, Bool.false_eq_true, if_false]
                  rw [rest]
                  cases runUntil (call host) .step stopsStepping maxSteps
                    next <;> rfl

/-- Running composes over budgets and agrees with single-stepping. -/
theorem budgetsCompose (host : Host) (vm : Interpreter) :
    BudgetsCompose host vm := by
  refine ⟨fun m n middle loops => ?_, fun m => runToHalt_map_snd,
    fun m replies final stopped => run_of_runUntil stopped⟩
  exact ⟨runToHalt_eq_ok_iff_loops.mpr ⟨.exhausted, loops, rfl⟩,
    loops.runToHalt_add⟩

end Interpreter

end T81VM.VM
