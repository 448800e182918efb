import T81VM.VM.ControlFlow
import T81VM.VM.Machine
import T81VM.VM.RunLoop

/-!
# How long a run lasts

Straight-line code, forward jumps and forward calls use up a potential: the
weight of the program counter and of the pending return addresses.  Only a
transfer to the same instruction or an earlier one renews it, so the number
of such transfers bounds the length of a run.  In the other direction, a run
that comes back to the machine it started from never ends.
-/

namespace T81VM.VM

open Tisc PartialSystem

namespace Interpreter

variable {host : Host} {program : Program} {vm middle final : Interpreter}
  {insn : Insn} {result : Expected} {maxSteps : Nat}

/-- The next instruction is a taken jump or a call, and its target is not
behind it. -/
def goesBack (vm : Interpreter) : Bool :=
  match vm.program.insns[vm.state.pc]? with
  | none => false
  | some insn =>
      match role insn.opcode, registerIndex insn.a with
      | .jumps, _ =>
          jumpTaken vm.state.flags insn.opcode
            && decide (toSize insn.a ≤ vm.state.pc)
      | .calls, .ok reg =>
          decide (toSize (vm.state.registers reg) ≤ vm.state.pc)
      | _, _ => false

theorem goesBack_of_jump (fetches : vm.Fetches insn)
    (jumps : role insn.opcode = .jumps)
    (taken : jumpTaken vm.state.flags insn.opcode = true) :
    vm.goesBack = decide (toSize insn.a ≤ vm.state.pc) := by
  unfold goesBack
  simp only [fetches.fetched, jumps, taken, Bool.true_and]

theorem goesBack_of_call {reg : Fin 243} (fetches : vm.Fetches insn)
    (calls : role insn.opcode = .calls)
    (index : registerIndex insn.a = .ok reg) :
    vm.goesBack =
      decide (toSize (vm.state.registers reg) ≤ vm.state.pc) := by
  unfold goesBack
  simp only [fetches.fetched, calls, index]

/-! ## Weights -/

/-- The weight of the program counter and of the pending returns. -/
def potential (weight : Nat → Nat) (vm : Interpreter) : Nat :=
  weight vm.state.pc + (vm.callStack.map weight).sum

/-- Weights that fall along the program, and what renews them. -/
structure Weighs (size : Nat) (weight : Nat → Nat) (charge : Nat) :
    Prop where
  falls : ∀ {pc next : Nat}, pc < size → pc < next → weight next < weight pc
  renewed : ∀ pc, weight pc ≤ charge

/-- A call splits the weight of its site between its target and its return
address. -/
def Splits (size : Nat) (weight : Nat → Nat) : Prop :=
  ∀ {pc target : Nat}, pc < size → pc < target →
    weight target + weight (pc + 1) < weight pc

/-- A step that does not trap lowers the potential, unless it goes back. -/
theorem Control.potential_lt {weight : Nat → Nat} {charge : Nat}
    (weighs : Weighs vm.program.insns.length weight charge)
    (splits : insn.opcode = .call →
      Splits vm.program.insns.length weight)
    (fetches : vm.Fetches insn) (control : Control vm insn (.ok ()) final) :
    final.potential weight <
      vm.potential weight + charge * vm.goesBack.toNat := by
  have inside : vm.state.pc < vm.program.insns.length :=
    (List.getElem?_eq_some_iff.mp fetches.fetched).1
  have onward : weight (vm.state.pc + 1) < weight vm.state.pc :=
    weighs.falls inside (Nat.lt_succ_self _)
  unfold potential
  cases control with
  | onward _ _ _ next frames | untaken _ _ next frames =>
      rw [next, frames]
      omega
  | taken jumps taken _ _ target frames =>
      rw [target, frames, goesBack_of_jump fetches jumps taken]
      by_cases back : toSize insn.a ≤ vm.state.pc
      · have renewed := weighs.renewed (toSize insn.a)
        simp only [back, decide_true, Bool.toNat_true, mul_one]
        omega
      · have forward := weighs.falls inside (Nat.lt_of_not_le back)
        omega
  | @called _ reg calls index _ _ target frames =>
      rw [target, frames, goesBack_of_call fetches calls index, List.map_cons,
        List.sum_cons]
      by_cases back : toSize (vm.state.registers reg) ≤ vm.state.pc
      · have renewed := weighs.renewed (toSize (vm.state.registers reg))
        simp only [back, decide_true, Bool.toNat_true, mul_one]
        omega
      · have split := splits (role_calls calls) inside
          (Nat.lt_of_not_le back)
        omega
  | returned _ frames target left =>
      rw [frames, target, left, List.map_cons, List.sum_cons]
      omega

/-- A loop that uses its budget up has paid for every step with potential or
with a step back. -/
theorem Loops.potential_le {weight : Nat → Nat} {charge : Nat}
    (weighs : Weighs program.insns.length weight charge)
    (splits : (∃ insn ∈ program.insns, insn.opcode = .call) →
      Splits program.insns.length weight)
    (installed : Installed program vm)
    (loops : Loops host maxSteps vm .exhausted final) :
    final.potential weight + maxSteps ≤ vm.potential weight +
      charge * (visited (step host) maxSteps vm).countP goesBack := by
  generalize whole : LoopExit.exhausted = exit at loops
  induction loops with
  | exhausted => simp [visited_zero]
  | trapped | halted => cases whole
  | @next maxSteps vm middle final exit stepped running rest induction =>
      have later := induction (installed.step stepped) whole
      have paid : middle.potential weight <
          vm.potential weight + charge * vm.goesBack.toNat := by
        cases step_stepped stepped with
        | resting halts =>
            rw [halts] at running
            cases running
        | @executed insn _ fetches transition =>
            have begun : vm.beginInsn.Fetches insn :=
              ⟨fetches.running, fetches.accepted, fetches.fetched⟩
            have same : vm.beginInsn.program = program :=
              installed.program_eq
            apply (Control.of_transition transition).potential_lt ?_ ?_ begun
            · rw [same]
              exact weighs
            · intro calls
              rw [same]
              exact splits ⟨insn, installed.member fetches, calls⟩
      have counted : (if vm.goesBack = true then 1 else 0) =
          vm.goesBack.toNat := by
        cases vm.goesBack <;> rfl
      rw [visited_succ_of_ok stepped, List.countP_cons, counted, Nat.mul_add]
      omega

/-! ## Two weightings -/

/-- With a weight that doubles with every instruction left, a call splits
the weight of its site. -/
theorem weighs_doubling (size : Nat) :
    Weighs size (fun pc => 2 ^ (size + 1 - pc) - 1) (2 ^ (size + 1) - 1) := by
  constructor
  · intro pc next inside forward
    have fewer : 2 ^ (size + 1 - next) < 2 ^ (size + 1 - pc) :=
      Nat.pow_lt_pow_right (by omega) (by omega)
    have positive : 0 < 2 ^ (size + 1 - next) := Nat.two_pow_pos _
    omega
  · intro pc
    have fewer : 2 ^ (size + 1 - pc) ≤ 2 ^ (size + 1) :=
      Nat.pow_le_pow_right (by omega) (by omega)
    omega

theorem splits_doubling (size : Nat) :
    Splits size (fun pc => 2 ^ (size + 1 - pc) - 1) := by
  intro pc target inside forward
  have entered : 2 ^ (size + 1 - target) ≤ 2 ^ (size - pc) :=
    Nat.pow_le_pow_right (by omega) (by omega)
  have doubled : 2 ^ (size + 1 - pc) = 2 * 2 ^ (size - pc) := by
    rw [← Nat.pow_succ', Nat.succ_eq_add_one, ← Nat.sub_add_comm inside.le]
  have kept : size + 1 - (pc + 1) = size - pc := Nat.add_sub_add_right ..
  have positive : 0 < 2 ^ (size - pc) := Nat.two_pow_pos _
  simp only [kept, doubled]
  omega

/-- Without calls the number of instructions left is enough. -/
theorem weighs_remaining (size : Nat) :
    Weighs size (fun pc => size - pc) size := by
  constructor
  · intro pc next inside forward
    omega
  · intro pc
    exact Nat.sub_le size pc

/-! ## The length of a run -/

/-- How many steps a run can take that goes back `back` times. -/
structure RunLength (program : Program) (back steps : Nat) : Prop where
  bounded : steps ≤ (2 ^ (program.insns.length + 1) - 1) * (back + 1)
  callFree : (∀ insn ∈ program.insns, insn.opcode ≠ .call) →
    steps ≤ program.insns.length * (back + 1)

/-- A run that neither traps nor halts keeps going back: the transfers to the
same instruction or to an earlier one bound its length. -/
theorem runLength_of_exhausted (loads : Loads program vm)
    (loops : Loops host maxSteps vm .exhausted final) :
    RunLength program ((visited (step host) maxSteps vm).countP goesBack)
      maxSteps := by
  have start : ∀ weight, vm.potential weight = weight 0 := by
    intro weight
    obtain ⟨policy, state⟩ := loads.state_eq
    simp [potential, loads.callStack_eq, state, initialState]
  constructor
  · have paid := loops.potential_le (weighs_doubling program.insns.length)
      (fun _ => splits_doubling program.insns.length) loads.installed
    rw [start] at paid
    simp only [Nat.sub_zero] at paid
    rw [Nat.mul_add, Nat.mul_one]
    omega
  · intro callFree
    have none : ¬ ∃ insn ∈ program.insns, insn.opcode = .call := by
      rintro ⟨insn, member, calls⟩
      exact callFree insn member calls
    have paid := loops.potential_le (weighs_remaining program.insns.length)
      (fun calls => absurd calls none) loads.installed
    rw [start] at paid
    simp only [Nat.sub_zero] at paid
    rw [Nat.mul_add, Nat.mul_one]
    omega

/-- An instruction that jumps to itself. -/
def jumpToItself : Program where
  insns := [{ opcode := .jump, a := 0, b := 0, c := 0 }]
  axionPolicyText := []
  fits := by decide

/-- Each of its three steps goes back. -/
theorem runLength_of_exhausted_jumpToItself :
    ∃ final, Loops strictHost 3 (freshlyLoaded jumpToItself) .exhausted
        final ∧
      RunLength jumpToItself ((visited (step strictHost) 3
        (freshlyLoaded jumpToItself)).countP goesBack) 3 := by
  have loops : Loops strictHost 3 (freshlyLoaded jumpToItself) .exhausted _ :=
    .next rfl rfl (.next rfl rfl (.next rfl rfl .exhausted))
  exact ⟨_, loops, runLength_of_exhausted (loads_freshlyLoaded rfl) loops⟩

/-! ## Coming back -/

/-- Objects with the same machine loop alike. -/
theorem Loops.alike {other : Interpreter} {exit : LoopExit}
    (loops : Loops host maxSteps vm exit final)
    (same : SameMachine vm other) :
    ∃ last, Loops host maxSteps other exit last ∧ SameMachine final last := by
  induction loops generalizing other with
  | exhausted => exact ⟨other, .exhausted, same⟩
  | trapped stepped =>
      have alike := @step_alike host _ _ same
      rw [stepped] at alike
      generalize answered : other.step host = answer at alike
      cases alike with
      | trapped code same => exact ⟨_, .trapped answered, same⟩
  | halted stepped halts =>
      have alike := @step_alike host _ _ same
      rw [stepped] at alike
      generalize answered : other.step host = answer at alike
      cases alike with
      | done same =>
          have halted := congrArg Machine.halted same.machine_eq
          exact ⟨_, .halted answered (halted.symm.trans halts), same⟩
  | next stepped running _ induction =>
      have alike := @step_alike host _ _ same
      rw [stepped] at alike
      generalize answered : other.step host = answer at alike
      cases alike with
      | done same =>
          have halted := congrArg Machine.halted same.machine_eq
          obtain ⟨last, rest, there⟩ := induction same
          exact ⟨last, .next answered (halted.symm.trans running) rest, there⟩

/-- A run without an end: every budget is used up, and the machine of the
guest depends on the budget modulo the period only. -/
structure Recurrent (host : Host) (period : Nat) (vm : Interpreter) :
    Prop where
  exhausts : ∀ budget, ∃ final, Loops host budget vm .exhausted final
  verdict : ∀ budget, ∃ final,
    runToHalt host budget vm = .ok (.error .trapInstruction, final)
  periodic : ∀ budget first second, Loops host budget vm .exhausted first →
    Loops host (period + budget) vm .exhausted second →
      SameMachine first second

/-- A run that comes back to the machine it started from never ends. -/
theorem recurrent_of_sameMachine {period : Nat} (positive : 0 < period)
    (loops : Loops host period vm .exhausted final)
    (same : SameMachine vm final) : Recurrent host period vm := by
  have exhausts : ∀ budget, ∃ final,
      Loops host budget vm .exhausted final := by
    intro budget
    have round : ∀ done state, done < budget → SameMachine vm state →
        ∃ next, Loops host period state .exhausted next ∧
          SameMachine vm next := by
      intro done state _ here
      obtain ⟨next, again, there⟩ := loops.alike here
      exact ⟨next, again, same.trans there⟩
    have start : SameMachine vm vm := ⟨rfl, rfl, rfl⟩
    obtain ⟨last, rounds, _⟩ :=
      @Loops.rounds host vm (fun _ => SameMachine vm) period budget round
        start
    exact rounds.exhausted_of_le (Nat.le_mul_of_pos_left budget positive)
  refine ⟨exhausts, ?_, ?_⟩
  · intro budget
    obtain ⟨last, used⟩ := exhausts budget
    exact ⟨last, runToHalt_eq_ok_iff_loops.mpr ⟨_, used, rfl⟩⟩
  · intro budget first second used longer
    obtain ⟨last, again, there⟩ := used.alike same
    have whole := loops.append again
    rw [(longer.unique whole).2]
    exact there

/-- The instruction that jumps to itself never ends. -/
theorem recurrent_of_sameMachine_jumpToItself :
    Recurrent strictHost 1 (freshlyLoaded jumpToItself) :=
  recurrent_of_sameMachine Nat.one_pos (.next rfl rfl .exhausted)
    ⟨rfl, rfl, rfl⟩

end Interpreter

end T81VM.VM
