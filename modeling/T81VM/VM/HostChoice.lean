import T81VM.Library.Excused
import T81VM.VM.ArithmeticSafety
import T81VM.VM.CompareBranch
import T81VM.VM.TensorFree

/-!
# What a host can choose

A host supplies the activations and the values of signed operations that C++
leaves undefined.  No run reaches an activation, so the second choice is the
only one a run depends on, and it depends on it only where it evaluates such
an operation.
-/

namespace T81VM.VM

open Tisc PartialSystem Excused

namespace Host

/-- The other host gives every value that this one gives. -/
def ExtendedBy (host other : Host) : Prop :=
  ∀ op value, host.onOverflow op = some value →
    other.onOverflow op = some value

/-- An undefined signed operation that only the other host gives a value. -/
def DecidedBy (host other : Host) (reason : Stuck) : Prop :=
  ∃ op : SignedOp, reason = .signed op ∧ ¬ op.Defined ∧
    host.onOverflow op = none ∧ other.onOverflow op ≠ none

variable {host other : Host}

theorem Strict.extendedBy (strict : host.Strict) : host.ExtendedBy other := by
  intro op value given
  rw [strict op] at given
  cases given

theorem signed_of_none {op : SignedOp} (undefined : ¬ op.Defined)
    (undecided : host.onOverflow op = none) :
    host.signed op = .error (.signed op) := by
  rw [signed, if_neg undefined]
  simp only [undecided]

theorem ExtendedBy.signed (extended : host.ExtendedBy other) (op : SignedOp) :
    EqUnless (host.DecidedBy other) (host.signed op) (other.signed op) := by
  by_cases defined : op.Defined
  · rw [host.signed_of_defined defined, other.signed_of_defined defined]
    exact .refl _
  · cases given : host.onOverflow op with
    | none =>
        have failed := signed_of_none defined given
        by_cases decided : other.onOverflow op = none
        · exact .inl (failed.trans (signed_of_none defined decided).symm)
        · exact .inr ⟨.signed op, failed, op, rfl, defined, given, decided⟩
    | some value =>
        rw [signed_of_onOverflow defined given,
          signed_of_onOverflow defined (extended op value given)]
        exact .refl _

end Host

namespace Interpreter

variable {host other : Host} {vm : Interpreter} {insn : Insn} {pc : Nat}

/-! ## Instructions -/

theorem arithmeticResult_eqUnless (extended : host.ExtendedBy other)
    (opcode : Opcode) (lhs rhs : Int64) :
    EqUnless (host.DecidedBy other) (arithmeticResult host opcode lhs rhs)
      (arithmeticResult other opcode lhs rhs) := by
  unfold arithmeticResult
  split
  all_goals first | exact extended.signed _ | exact .refl _

theorem executeArithmetic_eqUnless (extended : host.ExtendedBy other) :
    EqUnless (host.DecidedBy other) (vm.executeArithmetic host insn pc)
      (vm.executeArithmetic other insn pc) := by
  refine .after fun lhs => .after fun rhs => .ite (.refl _) ?_
  exact (arithmeticResult_eqUnless extended insn.opcode lhs rhs).bind
    fun _ _ => .refl _

theorem executeBump_eqUnless (extended : host.ExtendedBy other)
    {op : Int64 → SignedOp} :
    EqUnless (host.DecidedBy other) (vm.executeBump host insn pc op)
      (vm.executeBump other insn pc op) :=
  .after fun old => (extended.signed (op old)).bind fun _ _ => .refl _

theorem executeCmp_eqUnless (extended : host.ExtendedBy other) :
    EqUnless (host.DecidedBy other) (vm.executeCmp host insn pc)
      (vm.executeCmp other insn pc) :=
  .after fun lhs => .after fun rhs =>
    (extended.signed (.sub lhs rhs)).bind fun _ _ => .refl _

theorem executeNeg_eqUnless (extended : host.ExtendedBy other) :
    EqUnless (host.DecidedBy other) (vm.executeNeg host insn pc)
      (vm.executeNeg other insn pc) :=
  .after fun value => (extended.signed (.neg value)).bind fun _ _ => .refl _

theorem executeTNot_eqUnless (extended : host.ExtendedBy other) :
    EqUnless (host.DecidedBy other) (vm.executeTNot host insn pc)
      (vm.executeTNot other insn pc) :=
  .after fun value =>
    (extended.signed (.neg (clampTrit value))).bind fun _ _ => .refl _

theorem tritResult_eqUnless (extended : host.ExtendedBy other)
    (opcode : Opcode) (lhs rhs : Int64) :
    EqUnless (host.DecidedBy other) (tritResult host opcode lhs rhs)
      (tritResult other opcode lhs rhs) := by
  unfold tritResult
  split
  · exact .refl _
  · exact .refl _
  · exact (extended.signed (.sub lhs rhs)).bind fun _ _ => .refl _

theorem executeTrit_eqUnless (extended : host.ExtendedBy other) :
    EqUnless (host.DecidedBy other) (vm.executeTrit host insn pc)
      (vm.executeTrit other insn pc) :=
  .after fun lhs => .after fun rhs =>
    (tritResult_eqUnless extended insn.opcode (clampTrit lhs)
      (clampTrit rhs)).bind fun _ _ => .refl _

theorem executeWeightsLoad_eqUnless (extended : host.ExtendedBy other) :
    EqUnless (host.DecidedBy other) (vm.executeWeightsLoad host insn pc)
      (vm.executeWeightsLoad other insn pc) := by
  refine EqUnless.bind ?_ fun _ _ => .refl _
  unfold weightsHandle
  exact .ite (.refl _) (extended.signed _)

/-- Without tensors an instruction consults the host for signed operations
alone. -/
theorem TensorFree.execute_eqUnless (free : vm.TensorFree)
    (extended : host.ExtendedBy other) :
    EqUnless (host.DecidedBy other) (vm.execute host insn pc)
      (vm.execute other insn pc) := by
  cases looks : looksUpTensors insn.opcode with
  | true =>
      rw [free.execute_eq looks, free.execute_eq looks]
      exact .refl _
  | false =>
      rw [execute, execute]
      cases opcode : insn.opcode with
      | add | sub | mul | div | mod | fAdd | fSub | fMul | fDiv | fracAdd
      | fracSub | fracMul | fracDiv =>
          exact executeArithmetic_eqUnless extended
      | inc | dec => exact executeBump_eqUnless extended
      | cmp => exact executeCmp_eqUnless extended
      | neg => exact executeNeg_eqUnless extended
      | tNot => exact executeTNot_eqUnless extended
      | tAnd | tOr | tXor => exact executeTrit_eqUnless extended
      | weightsLoad => exact executeWeightsLoad_eqUnless extended
      | tVecAdd | tVecMul | tMatMul | tTenDot | tTranspose | tExp | tSqrt
      | tSiLU | tSoftmax | tRMSNorm | tRoPE | chkShape =>
          rw [opcode] at looks
          cases looks
      | _ => exact .refl _

/-! ## Calls -/

theorem TensorFree.step_eqUnless (free : vm.TensorFree)
    (extended : host.ExtendedBy other) :
    EqUnless (host.DecidedBy other) (vm.step host) (vm.step other) := by
  unfold Interpreter.step
  refine .ite (.refl _) ?_
  cases vm.preloadTrap with
  | some code => exact .refl _
  | none =>
      cases vm.program.insns[vm.state.pc]? with
      | none => exact .refl _
      | some insn =>
          have begun : vm.beginInsn.TensorFree := ⟨free.tensors, free.shapes⟩
          exact begun.execute_eqUnless extended

theorem TensorFree.runToHalt_eqUnless (free : vm.TensorFree)
    (extended : host.ExtendedBy other) (maxSteps : Nat) :
    EqUnless (host.DecidedBy other) (runToHalt host maxSteps vm)
      (runToHalt other maxSteps vm) := by
  induction maxSteps generalizing vm with
  | zero => exact .refl _
  | succ maxSteps induction =>
      refine (free.step_eqUnless extended).bind fun answer stepped => ?_
      obtain ⟨result, middle⟩ := answer
      cases result with
      | error code => exact .refl _
      | ok success => exact .ite (.refl _) (induction (free.step stepped))

theorem TensorFree.call_eqUnless (free : vm.TensorFree)
    (extended : host.ExtendedBy other) (request : Call) :
    EqUnless (host.DecidedBy other) (call host request vm)
      (call other request vm) := by
  cases request with
  | loadProgram | setRegister => exact .refl _
  | step => exact (free.step_eqUnless extended).bind fun _ _ => .refl _
  | runToHalt maxSteps =>
      exact (free.runToHalt_eqUnless extended maxSteps).bind
        fun _ _ => .refl _

/-- Whatever is done to a new object, a host that gives more values answers
it the same way, unless the first host has no value for an operation. -/
theorem run_eqUnless_extended (extended : host.ExtendedBy other)
    (calls : List Call) :
    EqUnless (host.DecidedBy other) (run (call host) calls {})
      (run (call other) calls {}) := by
  have fresh : TensorFree {} := ⟨rfl, rfl⟩
  exact run_eqUnless
    (fun _ _ _ _ free answered => TensorFree.of_call free answered)
    (fun request _ free => TensorFree.call_eqUnless free extended request)
    fresh

/-- On the C++ abstract machine a run is the run of every implementation,
unless it evaluates a signed operation that C++ leaves undefined. -/
theorem strictRun_portable (strict : host.Strict) (other : Host)
    (calls : List Call) :
    run (call host) calls {} = run (call other) calls {} ∨
      ∃ op : SignedOp, ¬ op.Defined ∧
        run (call host) calls {} = .error (.signed op) := by
  rcases run_eqUnless_extended strict.extendedBy calls with
    same | ⟨reason, failed, op, rfl, undefined, _⟩
  · exact .inl same
  · exact .inr ⟨op, undefined, failed⟩

/-- The program that increments the greatest word has no run on a strict
host. -/
theorem strictRun_portable_incrementGreatest :
    run (call strictHost) [.loadProgram incrementGreatest, .runToHalt 2] {} =
        run (call wrappingHost)
          [.loadProgram incrementGreatest, .runToHalt 2] {} ∨
      ∃ op : SignedOp, ¬ op.Defined ∧
        run (call strictHost)
          [.loadProgram incrementGreatest, .runToHalt 2] {} =
            .error (.signed op) :=
  strictRun_portable (fun _ => rfl) wrappingHost _

/-- Hosts that resolve overflow the same way cannot be told apart: whatever
their activations compute, no sequence of calls on a new object shows it. -/
theorem run_eq_of_onOverflow (same : host.onOverflow = other.onOverflow)
    (calls : List Call) :
    run (call host) calls {} = run (call other) calls {} := by
  have extended : host.ExtendedBy other := by
    intro op value given
    rw [← same]
    exact given
  apply (run_eqUnless_extended extended calls).eq
  intro reason decided
  obtain ⟨op, _, _, undecided, answered⟩ := decided
  rw [same] at undecided
  exact answered undecided

/-- Two hosts with different exponentials. -/
theorem run_eq_of_onOverflow_roundedExp :
    run (call strictHost) [.loadProgram addNoTensors, .runToHalt 2] {} =
      run (call { strictHost with roundedExp := id })
        [.loadProgram addNoTensors, .runToHalt 2] {} :=
  run_eq_of_onOverflow rfl _

end Interpreter

end T81VM.VM
