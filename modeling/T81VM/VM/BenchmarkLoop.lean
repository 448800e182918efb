import T81VM.VM.CompareBranch
import T81VM.VM.TraceCompleteness
import T81VM.VM.TrapRecord

/-!
# The loop of the benchmark

The program that the performance check measures counts a register down to
zero and another one up.  Its run is a prologue of two steps, a round of three
steps for each iteration, and a halt.
-/

namespace T81VM.VM

open Tisc PartialSystem

/-- The program of `render_program`. -/
def benchmarkProgram (iterations : Nat) : Program where
  insns := [
    { opcode := .loadImm, a := 0, b := ofSize iterations, c := 0 },
    { opcode := .loadImm, a := 1, b := 1, c := 0 },
    { opcode := .add, a := 2, b := 2, c := 1 },
    { opcode := .dec, a := 0, b := 0, c := 0 },
    { opcode := .jumpIfNotZero, a := 2, b := 0, c := 0 },
    { opcode := .halt, a := 0, b := 0, c := 0 }]
  axionPolicyText := []
  fits := Nat.le_of_ble_eq_true rfl

theorem validateProgram_benchmark (iterations : Nat) :
    validateProgram (benchmarkProgram iterations) = none := rfl

namespace Interpreter

variable {host : Host} {program : Program} {vm middle final : Interpreter}
  {insn : Insn} {pc taken : Nat}

/-! ## Steps that do not trap -/

/-- Steps were taken since the load, and none of them trapped. -/
structure Untrapped (program : Program) (taken : Nat) (vm : Interpreter) : Prop
    extends Counted program vm where
  traced : vm.state.trace.length = taken
  entries : ∀ entry ∈ vm.state.trace, entry.trap = none
  payload : vm.state.lastTrapPayload = none

theorem Loads.untrapped (loads : Loads program vm)
    (accepted : validateProgram program = none) : Untrapped program 0 vm := by
  have counted := loads.counted accepted
  obtain ⟨policy, same⟩ := loads.state_eq
  refine ⟨counted, ?_, ?_, ?_⟩
  · rw [same]
    rfl
  · intro entry member
    rw [same] at member
    cases member
  · rw [same]
    rfl

/-- A step that does not trap is one more. -/
theorem Untrapped.step (untrapped : Untrapped program taken vm)
    (running : vm.state.halted = false)
    (stepped : vm.step host = .ok (.ok (), final)) :
    Untrapped program (taken + 1) final := by
  obtain ⟨entry, appends⟩ := untrapped.toAccepted.appends running stepped
  refine ⟨untrapped.toCounted.step stepped, ?_, ?_, ?_⟩
  · rw [appends.trace, List.length_append, untrapped.traced]
    rfl
  · intro other member
    rw [appends.trace, List.mem_append, List.mem_singleton] at member
    rcases member with earlier | rfl
    · exact untrapped.entries other earlier
    · exact appends.trap
  · cases step_trapRecord stepped with
    | rests halted =>
        rw [running] at halted
        cases halted
    | halts _ _ _ cleared => exact cleared
    | goesOn _ _ _ kept => exact kept.trans untrapped.payload

/-- No step was a fetch past the end, so all of them were counted. -/
theorem Untrapped.steps (untrapped : Untrapped program taken vm) :
    vm.steps = taken := by
  rw [untrapped.steps_eq, ← untrapped.traced, fetchedCount,
    List.countP_eq_length]
  intro entry member
  have none := untrapped.entries entry member
  simp [FetchFault, none]

theorem Untrapped.gcCycles (untrapped : Untrapped program taken vm) :
    vm.state.gcCycles = taken / 64 := by
  rw [untrapped.gcCycles_eq, untrapped.steps]

theorem Untrapped.fetches (untrapped : Untrapped program taken vm)
    (running : vm.state.halted = false)
    (fetched : program.insns[vm.state.pc]? = some insn) : vm.Fetches insn := by
  refine ⟨running, untrapped.preloadTrap_eq, ?_⟩
  rw [untrapped.program_eq]
  exact fetched

/-! ## The instructions of the loop -/

theorem execute_loadImm {reg : Fin 243} (opcode : insn.opcode = .loadImm)
    (index : registerIndex insn.a = .ok reg) :
    vm.execute host insn pc = .ok (vm.wrote insn pc reg insn.b .int) := by
  rw [execute, opcode]
  show vm.executeLoadImm insn pc = _
  rw [executeLoadImm, setRegisterValue, index]
  rfl

theorem execute_add {reg x y : Fin 243} (opcode : insn.opcode = .add)
    (index : registerIndex insn.a = .ok reg)
    (left : registerIndex insn.b = .ok x)
    (right : registerIndex insn.c = .ok y)
    (fits : Representable
      ((vm.state.registers x).toInt + (vm.state.registers y).toInt)) :
    vm.execute host insn pc = .ok (vm.wrote insn pc reg
      (vm.state.registers x + vm.state.registers y) .int) := by
  have readLeft : vm.register insn.b = .ok (vm.state.registers x) :=
    register_eq_ok.mpr ⟨x, left, rfl⟩
  have readRight : vm.register insn.c = .ok (vm.state.registers y) :=
    register_eq_ok.mpr ⟨y, right, rfl⟩
  have signed : host.signed
      (.add (vm.state.registers x) (vm.state.registers y)) =
        .ok (vm.state.registers x + vm.state.registers y) :=
    host.signed_of_defined fits
  have result : arithmeticResult host insn.opcode (vm.state.registers x)
      (vm.state.registers y) =
        .ok (vm.state.registers x + vm.state.registers y) := by
    rw [opcode]
    exact signed
  have total : divides insn.opcode = false := by
    rw [opcode]
    rfl
  rw [execute, opcode]
  show vm.executeArithmetic host insn pc = _
  rw [executeArithmetic, readLeft, readRight]
  show (if divides insn.opcode && _ then _ else _) = _
  rw [total, Bool.false_and, if_neg (by decide), result]
  show vm.setRegisterValue insn.a _ .int >>= _ = _
  rw [setRegisterValue, index]
  rfl

theorem execute_dec {reg : Fin 243} (opcode : insn.opcode = .dec)
    (index : registerIndex insn.a = .ok reg)
    (fits : Representable ((vm.state.registers reg).toInt - 1)) :
    vm.execute host insn pc =
      .ok (((vm.assignRegister reg (vm.state.registers reg - 1) .int).setFlags
        (vm.state.registers reg - 1)).finished insn pc) := by
  have read : vm.register insn.a = .ok (vm.state.registers reg) :=
    register_eq_ok.mpr ⟨reg, index, rfl⟩
  have signed : host.signed (.sub (vm.state.registers reg) 1) =
      .ok (vm.state.registers reg - 1) :=
    host.signed_of_defined fits
  rw [execute, opcode]
  show vm.executeBump host insn pc (.sub · 1) = _
  rw [executeBump, read]
  show host.signed (.sub (vm.state.registers reg) 1) >>= _ = _
  rw [signed]
  show registerIndex insn.a >>= _ = _
  rw [index]
  rfl

theorem execute_halt (opcode : insn.opcode = .halt) :
    vm.execute host insn pc = .ok (({ vm with
      state := { vm.state with
        halted := true
        lastTrapPayload := none } }).finished insn pc) := by
  rw [execute, opcode]
  rfl

/-- A target inside the program is jumped to. -/
theorem checkJumpTarget_inside {target : Int64} (nonneg : 0 ≤ target)
    (inside : toSize target < vm.program.insns.length) :
    vm.checkJumpTarget insn pc target =
      .ok (vm.movedTo insn pc (toSize target)) := by
  rw [checkJumpTarget, if_neg]
  · rfl
  · rw [not_or, Int64.not_lt, Nat.not_le]
    exact ⟨nonneg, inside⟩

/-! ## The rounds -/

variable {iterations : Nat} {down one up : Int}

/-- The machine before an instruction of the benchmark, and the values of the
registers that the program uses. -/
structure BenchmarkAt (iterations taken pc : Nat) (down one up : Int)
    (vm : Interpreter) : Prop
    extends Untrapped (benchmarkProgram iterations) taken vm where
  running : vm.state.halted = false
  pc_eq : vm.state.pc = pc
  counter : (vm.state.registers 0).toInt = down
  increment : (vm.state.registers 1).toInt = one
  sum : (vm.state.registers 2).toInt = up

theorem Loads.benchmarkAt
    (loads : Loads (benchmarkProgram iterations) vm) :
    BenchmarkAt iterations 0 0 0 0 0 vm := by
  have untrapped := loads.untrapped (validateProgram_benchmark iterations)
  obtain ⟨policy, same⟩ := loads.state_eq
  refine ⟨untrapped, ?_, ?_, ?_, ?_, ?_⟩ <;> rw [same] <;> rfl

/-- An instruction that neither traps nor halts is one turn of the loop. -/
theorem BenchmarkAt.turn (here : BenchmarkAt iterations taken pc down one up vm)
    (fetched : (benchmarkProgram iterations).insns[pc]? = some insn)
    (executed : vm.beginInsn.execute host insn pc = .ok (.ok (), middle))
    (running : middle.state.halted = false) :
    Loops host 1 vm .exhausted middle ∧
      Untrapped (benchmarkProgram iterations) (taken + 1) middle := by
  have fetches : vm.Fetches insn := here.fetches here.running
    (by rw [here.pc_eq]; exact fetched)
  have stepped : vm.step host = .ok (.ok (), middle) := by
    rw [step_of_fetches fetches, here.pc_eq]
    exact executed
  exact ⟨.next stepped running .exhausted, here.step here.running stepped⟩

/-- The first instruction loads the counter. -/
theorem BenchmarkAt.loadCounter (host : Host)
    (here : BenchmarkAt iterations taken 0 down one up vm)
    (word : iterations < 2 ^ 63) :
    ∃ next, Loops host 1 vm .exhausted next ∧
      BenchmarkAt iterations (taken + 1) 1 iterations one up next := by
  obtain ⟨loops, untrapped⟩ := here.turn rfl
    (@execute_loadImm host vm.beginInsn _ 0 0 rfl rfl) here.running
  refine ⟨_, loops, untrapped, here.running, ?_, ?_, ?_, ?_⟩
  · exact congrArg (· + 1) here.pc_eq
  · exact toInt_ofSize word
  · exact here.increment
  · exact here.sum

/-- The second instruction loads the increment. -/
theorem BenchmarkAt.loadIncrement (host : Host)
    (here : BenchmarkAt iterations taken 1 down one up vm) :
    ∃ next, Loops host 1 vm .exhausted next ∧
      BenchmarkAt iterations (taken + 1) 2 down 1 up next := by
  obtain ⟨loops, untrapped⟩ := here.turn rfl
    (@execute_loadImm host vm.beginInsn _ 1 1 rfl rfl) here.running
  refine ⟨_, loops, untrapped, here.running, ?_, ?_, ?_, ?_⟩
  · exact congrArg (· + 1) here.pc_eq
  · exact here.counter
  · rfl
  · exact here.sum

/-- A round begins with counting up. -/
theorem BenchmarkAt.add (host : Host)
    (here : BenchmarkAt iterations taken 2 down 1 up vm)
    (lower : 0 ≤ up) (upper : up + 1 < 2 ^ 63) :
    ∃ next, Loops host 1 vm .exhausted next ∧
      BenchmarkAt iterations (taken + 1) 3 down 1 (up + 1) next := by
  have sum := here.sum
  have increment := here.increment
  have fits : Representable ((vm.state.registers 2).toInt +
      (vm.state.registers 1).toInt) := by
    rw [sum, increment]
    constructor <;> omega
  obtain ⟨loops, untrapped⟩ := here.turn rfl
    (@execute_add host vm.beginInsn _ 2 2 2 1 rfl rfl rfl rfl fits) here.running
  refine ⟨_, loops, untrapped, here.running, ?_, ?_, ?_, ?_⟩
  · exact congrArg (· + 1) here.pc_eq
  · exact here.counter
  · exact here.increment
  · show (vm.state.registers 2 + vm.state.registers 1).toInt = up + 1
    rw [SignedWord.toInt_add fits.1 fits.2, sum, increment]

/-- Then it counts down, and the flag tells when the counter is used up. -/
theorem BenchmarkAt.dec (host : Host)
    (here : BenchmarkAt iterations taken 3 down 1 up vm)
    (lower : 1 ≤ down) :
    ∃ next, Loops host 1 vm .exhausted next ∧
      BenchmarkAt iterations (taken + 1) 4 (down - 1) 1 up next ∧
      (next.state.flags.zero = true ↔ down = 1) := by
  have counter := here.counter
  have upper := (vm.state.registers 0).toInt_lt
  have fits : Representable ((vm.state.registers 0).toInt - 1) := by
    rw [counter] at upper ⊢
    constructor <;> omega
  have value : (vm.state.registers 0 - 1).toInt = down - 1 := by
    rw [Int64.toInt_sub, ← counter]
    exact SignedWord.bmod_eq fits.1 fits.2
  obtain ⟨loops, untrapped⟩ := here.turn rfl
    (@execute_dec host vm.beginInsn _ 3 0 rfl rfl fits) here.running
  refine ⟨_, loops, ⟨untrapped, here.running, ?_, ?_, ?_, ?_⟩, ?_⟩
  · exact congrArg (· + 1) here.pc_eq
  · exact value
  · exact here.increment
  · exact here.sum
  · show (vm.state.registers 0 - 1 == 0) = true ↔ down = 1
    rw [beq_iff_eq, ← Int64.toInt_inj, value, Int64.toInt_zero]
    omega

/-- The jump closes the round while the counter is not used up. -/
theorem BenchmarkAt.jumpIfNotZero (host : Host)
    (here : BenchmarkAt iterations taken 4 down 1 up vm) :
    ∃ next, Loops host 1 vm .exhausted next ∧
      BenchmarkAt iterations (taken + 1)
        (if vm.state.flags.zero then 5 else 2) down 1 up next := by
  have branch := @execute_branch host vm.beginInsn 4
    { opcode := .jumpIfNotZero, a := 2, b := 0, c := 0 } .notEqual rfl
  have branch : vm.beginInsn.execute host
      { opcode := .jumpIfNotZero, a := 2, b := 0, c := 0 } 4 =
        vm.beginInsn.executeJumpIf
          { opcode := .jumpIfNotZero, a := 2, b := 0, c := 0 } 4
          (!vm.state.flags.zero) := branch
  cases zero : vm.state.flags.zero with
  | true =>
      rw [zero] at branch
      have executed := branch.trans (finish_eq_ok.mpr rfl)
      obtain ⟨loops, untrapped⟩ := here.turn rfl executed here.running
      refine ⟨_, loops, untrapped, here.running, ?_, here.counter,
        here.increment, here.sum⟩
      exact congrArg (· + 1) here.pc_eq
  | false =>
      rw [zero] at branch
      have inside : toSize 2 < vm.beginInsn.program.insns.length := by
        have same : vm.beginInsn.program = benchmarkProgram iterations :=
          here.program_eq
        rw [same]
        exact Nat.le_of_ble_eq_true rfl
      have executed := branch.trans
        (checkJumpTarget_inside (by decide) inside)
      obtain ⟨loops, untrapped⟩ := here.turn rfl executed here.running
      exact ⟨_, loops, untrapped, here.running, rfl, here.counter,
        here.increment, here.sum⟩

/-- The prologue leads to the head of the first round. -/
theorem BenchmarkAt.prologue (host : Host)
    (here : BenchmarkAt iterations 0 0 0 0 0 vm)
    (word : iterations < 2 ^ 63) :
    ∃ next, Loops host 2 vm .exhausted next ∧
      BenchmarkAt iterations 2 2 iterations 1 0 next := by
  obtain ⟨middle, first, loaded⟩ := here.loadCounter host word
  obtain ⟨next, second, ready⟩ := loaded.loadIncrement host
  exact ⟨next, first.append second, ready⟩

/-- A round moves one from the counter to the sum. -/
theorem BenchmarkAt.round (host : Host)
    (here : BenchmarkAt iterations taken 2 down 1 up vm)
    (remaining : 1 ≤ down) (lower : 0 ≤ up) (upper : up + 1 < 2 ^ 63) :
    ∃ next, Loops host 3 vm .exhausted next ∧
      BenchmarkAt iterations (taken + 3) (if down = 1 then 5 else 2)
        (down - 1) 1 (up + 1) next := by
  obtain ⟨added, first, counted⟩ := here.add host lower upper
  obtain ⟨lowered, second, flagged, zero⟩ := counted.dec host remaining
  obtain ⟨next, third, there⟩ := flagged.jumpIfNotZero host
  refine ⟨next, (first.append second).append third, ?_⟩
  simp only [zero] at there
  exact there

/-- The machine behind some of the rounds; behind the last one the program
counter has left the loop. -/
def RoundsDone (iterations done : Nat) (vm : Interpreter) : Prop :=
  BenchmarkAt iterations (2 + 3 * done)
    (if done = iterations then 5 else 2) (iterations - done : Int) 1 done vm

theorem RoundsDone.next {done : Nat} (host : Host)
    (here : RoundsDone iterations done vm) (before : done < iterations)
    (word : iterations < 2 ^ 63) :
    ∃ next, Loops host 3 vm .exhausted next ∧
      RoundsDone iterations (done + 1) next := by
  unfold RoundsDone at here
  rw [if_neg (Nat.ne_of_lt before)] at here
  obtain ⟨next, loops, there⟩ :=
    here.round host (by omega) (by omega) (by omega)
  refine ⟨next, loops, ?_⟩
  have last : (iterations - done : Int) = 1 ↔ done + 1 = iterations := by
    omega
  have remaining : (iterations - done : Int) - 1 =
      iterations - (done + 1 : Nat) := by omega
  simp only [last, remaining] at there
  exact there

/-- Two steps and three for each iteration lead to the halt. -/
theorem Loads.reachesHalt (host : Host)
    (loads : Loads (benchmarkProgram iterations) vm)
    (positive : 1 ≤ iterations) (word : iterations < 2 ^ 63) :
    ∃ next, Loops host (3 * iterations + 2) vm .exhausted next ∧
      BenchmarkAt iterations (3 * iterations + 2) 5 0 1 iterations next := by
  obtain ⟨first, prologue, ready⟩ := loads.benchmarkAt.prologue host word
  have start : RoundsDone iterations 0 first := by
    unfold RoundsDone
    rw [if_neg (by omega), Nat.cast_zero, sub_zero]
    exact ready
  obtain ⟨next, rounds, there⟩ := Loops.rounds
    (fun done vm before here => here.next host before word) start
  unfold RoundsDone at there
  rw [if_pos rfl, sub_self, Nat.add_comm] at there
  refine ⟨next, ?_, there⟩
  rw [Nat.add_comm]
  exact prologue.append rounds

/-! ## The whole run -/

/-- The machine at the end of the benchmark. -/
structure BenchmarkDone (iterations : Nat) (final : Interpreter) : Prop where
  halted : final.state.halted = true
  steps : final.steps = 3 * iterations + 3
  unwrapped : final.steps < 2 ^ 64
  traced : final.state.trace.length = 3 * iterations + 3
  entries : ∀ entry ∈ final.state.trace, entry.trap = none
  payload : final.state.lastTrapPayload = none
  counter : final.state.registers 0 = 0
  increment : final.state.registers 1 = 1
  sum : (final.state.registers 2).toInt = iterations
  gcCycles : final.state.gcCycles = (3 * iterations + 3) / 64
  pc : final.state.pc = 6

/-- The benchmark halts on every budget that is large enough, always in the
same state, and on no other. -/
structure RunsBenchmark (host : Host) (iterations : Nat)
    (vm : Interpreter) : Prop where
  halts : ∃ final, BenchmarkDone iterations final ∧
    ∀ maxSteps, 3 * iterations + 3 ≤ maxSteps →
      runToHalt host maxSteps vm = .ok (.ok (), final)
  exhausts : ∀ maxSteps, maxSteps < 3 * iterations + 3 →
    ∃ middle, runToHalt host maxSteps vm =
      .ok (.error .trapInstruction, middle)

/-- The last step halts. -/
theorem BenchmarkAt.halt (host : Host)
    (here : BenchmarkAt iterations (3 * iterations + 2) 5 0 1 iterations vm)
    (counted : 3 * iterations + 3 < 2 ^ 64) :
    ∃ final, vm.step host = .ok (.ok (), final) ∧
      BenchmarkDone iterations final := by
  have fetches : vm.Fetches { opcode := .halt, a := 0, b := 0, c := 0 } :=
    here.fetches here.running (by rw [here.pc_eq]; rfl)
  have stepped := @step_of_fetches host _ _ fetches
  rw [execute_halt rfl] at stepped
  have untrapped := here.step here.running stepped
  refine ⟨_, stepped, rfl, untrapped.steps, ?_, untrapped.traced,
    untrapped.entries, untrapped.payload, ?_, ?_, here.sum,
    untrapped.gcCycles, ?_⟩
  · rw [untrapped.steps]
    exact counted
  · exact Int64.toInt_inj.mp here.counter
  · exact Int64.toInt_inj.mp here.increment
  · exact congrArg (· + 1) here.pc_eq

/-- The benchmark takes exactly three steps for each iteration and three
more. -/
theorem Loads.runsBenchmark (host : Host)
    (loads : Loads (benchmarkProgram iterations) vm)
    (positive : 1 ≤ iterations) (word : iterations < 2 ^ 63)
    (counted : 3 * iterations + 3 < 2 ^ 64) :
    RunsBenchmark host iterations vm := by
  obtain ⟨last, loops, here⟩ := loads.reachesHalt host positive word
  obtain ⟨final, stepped, done⟩ := here.halt host counted
  refine ⟨⟨final, done, fun maxSteps enough => ?_⟩,
    fun maxSteps short => ?_⟩
  · obtain ⟨more, rfl⟩ := Nat.exists_eq_add_of_le enough
    have halts : Loops host (more + 1) last .halted final :=
      .halted stepped done.halted
    have whole := loops.append halts
    rw [← Nat.add_assoc, Nat.add_right_comm] at whole
    exact runToHalt_eq_ok_iff_loops.mpr ⟨_, whole, rfl⟩
  · obtain ⟨middle, exhausted⟩ :=
      loops.exhausted_of_le (Nat.le_of_lt_succ short)
    exact ⟨middle, runToHalt_eq_ok_iff_loops.mpr ⟨_, exhausted, rfl⟩⟩

end Interpreter

end T81VM.VM
