import T81VM.Library.SignedWord
import T81VM.VM.OperandRoles

/-!
# Signed arithmetic

The interpreter guards its divisions against a zero divisor and nothing else.
`run_ne_signed` gives bounds on the operands of each step under which a run
evaluates no signed operation outside 64 bits.
-/

namespace T81VM.VM

open Tisc PartialSystem Fallible SignedWord Interpreter

/-- Bounds on the operands that keep the exact result inside the word. -/
def OpFits : SignedOp → Prop
  | .add lhs rhs => AddFits lhs rhs
  | .sub lhs rhs => SubFits lhs rhs
  | .mul lhs rhs => MulFits lhs rhs
  | .div lhs rhs | .mod lhs rhs => ¬ (lhs = Int64.minValue ∧ rhs = -1)
  | .neg value => value ≠ Int64.minValue

/-- The bounds are exact, once a divisor is not zero. -/
theorem opFits_iff_defined {op : SignedOp}
    (divisor : ∀ lhs rhs, op = .div lhs rhs ∨ op = .mod lhs rhs → rhs ≠ 0) :
    OpFits op ↔ op.Defined := by
  cases op with
  | add lhs rhs => exact addFits_iff
  | sub lhs rhs => exact subFits_iff
  | mul lhs rhs => exact mulFits_iff
  | div lhs rhs =>
      have nonzero := divisor lhs rhs (.inl rfl)
      exact ⟨fun fits => ⟨nonzero, fits⟩, And.right⟩
  | mod lhs rhs =>
      have nonzero := divisor lhs rhs (.inr rfl)
      exact ⟨fun fits => ⟨nonzero, fits⟩, And.right⟩
  | neg value => exact Iff.rfl

/-- The operation of the inner switch of the arithmetic opcodes. -/
def arithmeticOp (opcode : Opcode) (lhs rhs : Int64) : Option SignedOp :=
  match opcode with
  | .add | .fAdd | .fracAdd => some (.add lhs rhs)
  | .sub | .fSub | .fracSub => some (.sub lhs rhs)
  | .mul | .fMul | .fracMul => some (.mul lhs rhs)
  | .div | .fDiv | .fracDiv => some (.div lhs rhs)
  | .mod => some (.mod lhs rhs)
  | _ => none

/-- The exact sum of the first products of an inner product. -/
def partialSum (lhs rhs : List Int64) (left right : Nat → Nat) : Nat → Int
  | 0 => 0
  | k + 1 =>
      partialSum lhs rhs left right k
        + (lhs.getD (left k) 0).toInt * (rhs.getD (right k) 0).toInt

/-- Every product and every partial sum of an inner product fits. -/
def InnerProductFits (lhs rhs : List Int64) (bound : Nat)
    (left right : Nat → Nat) : Prop :=
  ∀ k x y, k < bound → lhs[left k]? = some x → rhs[right k]? = some y →
    MulFits x y ∧ -2 ^ 63 ≤ partialSum lhs rhs left right (k + 1) ∧
      partialSum lhs rhs left right (k + 1) < 2 ^ 63

/-- The operands of an instruction are inside the bounds of the operations it
evaluates on them. -/
def InsnFits (vm : Interpreter) (insn : Insn) : Prop :=
  match insn.opcode with
  | .inc => ∀ old, vm.register insn.a = .ok old → OpFits (.add old 1)
  | .dec => ∀ old, vm.register insn.a = .ok old → OpFits (.sub old 1)
  | .cmp => ∀ lhs rhs, vm.register insn.a = .ok lhs →
      vm.register insn.b = .ok rhs → OpFits (.sub lhs rhs)
  | .neg => ∀ value, vm.register insn.b = .ok value → OpFits (.neg value)
  | .tVecAdd | .tVecMul => ∀ lhs rhs (i : Nat) x y,
      TensorOperands vm insn lhs rhs →
      lhs.shape.length = 1 ∧ lhs.shape = rhs.shape ∧
        lhs.data.length = rhs.data.length →
      lhs.data[i]? = some x → rhs.data[i]? = some y →
      OpFits (if insn.opcode = .tVecAdd then .add x y else .mul x y)
  | .tMatMul => ∀ lhs rhs rows inner rhsInner cols,
      TensorOperands vm insn lhs rhs →
      lhs.shape = [rows, inner] ∧ rhs.shape = [rhsInner, cols] ∧
        toSize inner = toSize rhsInner →
      lhs.data.length = wrapSize (toSize rows * toSize inner) ∧
        rhs.data.length = wrapSize (toSize rhsInner * toSize cols) →
      ∀ r c, r < toSize rows → c < toSize cols →
        InnerProductFits lhs.data rhs.data (toSize inner)
          (fun k => wrapSize (r * toSize inner + k))
          (fun k => wrapSize (k * toSize cols + c))
  | .tTenDot => ∀ lhs rhs, TensorOperands vm insn lhs rhs →
      lhs.data.length = rhs.data.length →
      InnerProductFits lhs.data rhs.data lhs.data.length id id
  | .tRoPE => ∀ input (i : Nat) x, TensorOperand vm insn input →
      input.data.length % 2 = 0 → i % 2 = 0 → input.data[i]? = some x → OpFits (.neg x)
  | opcode => ∀ lhs rhs op, vm.register insn.b = .ok lhs →
      vm.register insn.c = .ok rhs → arithmeticOp opcode lhs rhs = some op →
      OpFits op

/-- The next step stays inside the bounds. -/
def ArithmeticFits (vm : Interpreter) : Prop :=
  ∀ insn, vm.Fetches insn → InsnFits vm insn

/-- Failures that are no signed operation. -/
def NotSigned (stuck : Stuck) : Prop :=
  ∀ op, stuck ≠ .signed op

theorem signed_notSigned {host : Host} {op : SignedOp} (fits : op.Defined) :
    FailsOnly NotSigned (host.signed op) := by
  rw [host.signed_of_defined fits]
  trivial

theorem notSigned_tensorIndex (idx : Nat) : NotSigned (.tensorIndex idx) :=
  fun _ same => by contradiction

theorem notSigned_lengthError : NotSigned (.exception .lengthError) :=
  fun _ same => by contradiction

/-- The running sum of an inner product is the exact partial sum. -/
theorem innerProduct_notSigned {host : Host} {lhs rhs : List Int64}
    {bound : Nat} {left right : Nat → Nat}
    (fits : InnerProductFits lhs rhs bound left right) :
    FailsOnly NotSigned (forBelow bound 0 fun sum k =>
      multiplyAdd host lhs rhs sum (left k) (right k)) := by
  refine Meets.failsOnly (innerProduct_meets notSigned_tensorIndex
    (fun k sum => sum.toInt = partialSum lhs rhs left right k) rfl ?_)
  intro k sum x y small exact readLeft readRight
  obtain ⟨product, lower, upper⟩ := fits k x y small readLeft readRight
  have next : partialSum lhs rhs left right (k + 1) =
      sum.toInt + x.toInt * y.toInt := by
    simp [partialSum, exact, readLeft, readRight]
  have defined : (SignedOp.mul x y).Defined := mulFits_iff.mp product
  have productExact : (x * y).toInt = x.toInt * y.toInt :=
    toInt_mul defined.1 defined.2
  rw [host.signed_of_defined defined]
  show Meets NotSigned _ (host.signed (.add sum (x * y)))
  rw [next, ← productExact] at lower upper
  rw [host.signed_of_defined (show (SignedOp.add sum (x * y)).Defined from
    ⟨lower, upper⟩)]
  show (sum + x * y).toInt = partialSum lhs rhs left right (k + 1)
  rw [toInt_add lower upper, next, productExact]

theorem arithmeticResult_notSigned {host : Host} {opcode : Opcode}
    {lhs rhs : Int64}
    (fits : ∀ op, arithmeticOp opcode lhs rhs = some op → OpFits op)
    (divisor : ¬ (divides opcode && rhs == 0) = true) :
    FailsOnly NotSigned (arithmeticResult host opcode lhs rhs) := by
  have nonzero : divides opcode = true → rhs ≠ 0 := by
    intro divide zero
    exact divisor (by simp [divide, zero])
  have defined : ∀ op, arithmeticOp opcode lhs rhs = some op →
      op.Defined := by
    intro op named
    refine (opFits_iff_defined ?_).mp (fits op named)
    rintro first second (rfl | rfl)
    all_goals
      cases opcode <;> cases named
      all_goals exact nonzero rfl
  unfold arithmeticResult
  split
  all_goals
    first
    | exact signed_notSigned (defined _ rfl)
    | trivial

/-- Inside the bounds a signed operation is no obstacle. -/
theorem Obstacle.ne_signed {host : Host} {vm : Interpreter} {insn : Insn}
    {stuck : Stuck} (fits : InsnFits vm insn)
    (inside : vm.state.pc < 2 ^ 58)
    (obstacle : Obstacle host vm insn vm.state.pc stuck) :
    NotSigned stuck := by
  unfold InsnFits at fits
  cases obstacle with
  | operand | memory | full => exact fun _ same => by contradiction
  | arithmetic left right divisor failed =>
      refine (arithmeticResult_notSigned ?_ divisor).of_error failed
      intro op named
      split at fits
      case h_10 => exact fits _ _ op left right named
      all_goals
        rename_i opcode
        rw [opcode] at named
        cases named
  | incremented opcode read failed =>
      rw [opcode] at fits
      have defined := (opFits_iff_defined (by simp)).mp (fits _ read)
      exact (signed_notSigned defined).of_error failed
  | decremented opcode read failed =>
      rw [opcode] at fits
      have defined := (opFits_iff_defined (by simp)).mp (fits _ read)
      exact (signed_notSigned defined).of_error failed
  | compared opcode left right failed =>
      rw [opcode] at fits
      have defined := (opFits_iff_defined (by simp)).mp (fits _ _ left right)
      exact (signed_notSigned defined).of_error failed
  | negated opcode read failed =>
      rw [opcode] at fits
      have defined := (opFits_iff_defined (by simp)).mp (fits _ read)
      exact (signed_notSigned defined).of_error failed
  | weights opcode failed =>
      unfold weightsHandle at failed
      split at failed
      · contradiction
      · have small : (ofSize vm.state.pc).toInt = vm.state.pc :=
          toInt_ofSize (by omega)
        have defined : (SignedOp.add 1000 (ofSize vm.state.pc)).Defined := by
          show Representable (1000 + (ofSize vm.state.pc).toInt)
          rw [small]
          constructor <;> omega
        exact (signed_notSigned defined).of_error failed
  | vector opcode operands shapes failed =>
      refine (vectorCombine_meets notSigned_tensorIndex notSigned_lengthError
        ?_).of_error failed
      intro i x y first second
      rcases opcode with opcode | opcode
      · simp only [opcode, if_true] at fits ⊢
        have sum := fits _ _ i x y operands shapes first second
        exact signed_notSigned ((opFits_iff_defined (by simp)).mp sum)
      · simp only [opcode, reduceCtorEq, if_false] at fits ⊢
        have product := fits _ _ i x y operands shapes first second
        exact signed_notSigned ((opFits_iff_defined (by simp)).mp product)
  | @matMul lhs rhs rows inner rhsInner cols _ opcode operands shapes sizes
      failed =>
      rw [opcode] at fits
      refine (matMulData_meets notSigned_tensorIndex notSigned_lengthError
        ?_).of_error failed
      intro r c smallRow smallCol
      exact innerProduct_notSigned (fits lhs rhs rows inner rhsInner cols
        operands shapes sizes r c smallRow smallCol)
  | tenDot opcode operands sizes failed =>
      rw [opcode] at fits
      exact (innerProduct_notSigned (fits _ _ operands sizes)).of_error failed
  | transpose failed =>
      exact (transposeData_meets notSigned_tensorIndex
        notSigned_lengthError).of_error failed
  | rotated opcode operand paired failed =>
      rw [opcode] at fits
      refine (rotatePairs_meets ?_).of_error failed
      intro i x even _ found
      have defined := (opFits_iff_defined (by simp)).mp
        (fits _ i x operand paired even found)
      exact signed_notSigned defined

/-- A step inside the bounds evaluates no signed operation outside 64
bits. -/
theorem step_ne_signed {host : Host} {vm : Interpreter} (op : SignedOp)
    (fits : ArithmeticFits vm) : vm.step host ≠ .error (.signed op) := by
  intro failed
  obtain ⟨insn, fetches, obstacle⟩ := step_obstacle failed
  have bound := vm.program.length_lt
  have position : vm.state.pc < vm.program.insns.length :=
    (List.getElem?_eq_some_iff.mp fetches.fetched).1
  have begun : InsnFits vm.beginInsn insn := fits insn fetches
  exact obstacle.ne_signed begun (Nat.lt_trans position bound) op rfl

/-- Every step of a bounded run is taken inside the bounds. -/
def LoopFits (host : Host) : Nat → Interpreter → Prop
  | 0, _ => True
  | maxSteps + 1, vm =>
      ArithmeticFits vm ∧ ∀ next, vm.step host = .ok (.ok (), next) →
        next.state.halted = false → LoopFits host maxSteps next

/-- Every step a call takes is taken inside the bounds. -/
def CallFits (host : Host) : Call → Interpreter → Prop
  | .step, vm => ArithmeticFits vm
  | .runToHalt maxSteps, vm => LoopFits host maxSteps vm
  | .loadProgram _, _ | .setRegister .., _ => True

theorem runToHalt_ne_signed {host : Host} {maxSteps : Nat}
    {vm : Interpreter} (op : SignedOp) (fits : LoopFits host maxSteps vm) :
    runToHalt host maxSteps vm ≠ .error (.signed op) := by
  induction maxSteps generalizing vm with
  | zero => simp [runToHalt]
  | succ maxSteps induction =>
      obtain ⟨here, later⟩ := fits
      intro failed
      rcases bind_eq_error.mp failed with stuck | ⟨⟨result, next⟩, stepped, rest⟩
      · exact step_ne_signed op here stuck
      · cases result with
        | error code => cases rest
        | ok _ =>
            simp only at rest
            split at rest
            · cases rest
            · rename_i running
              exact induction
                (later next stepped (Bool.eq_false_iff.mpr running)) rest

/-- A call inside the bounds evaluates no signed operation outside 64 bits. -/
theorem call_ne_signed {host : Host} (op : SignedOp) (call : Call)
    (vm : Interpreter) (fits : CallFits host call vm) :
    Interpreter.call host call vm ≠ .error (.signed op) := by
  intro failed
  cases call with
  | loadProgram program =>
      simp only [Interpreter.call] at failed
      split at failed <;> contradiction
  | setRegister => cases failed
  | step =>
      rcases bind_eq_error.mp failed with stuck | ⟨_, _, impossible⟩
      · exact step_ne_signed op fits stuck
      · cases impossible
  | runToHalt maxSteps =>
      rcases bind_eq_error.mp failed with stuck | ⟨_, _, impossible⟩
      · exact runToHalt_ne_signed op fits stuck
      · cases impossible

/-- `LoadImm 0` with the greatest word, then `Inc 0`. -/
def incrementGreatest : Program where
  insns := [
    { opcode := .loadImm, a := 0, b := 9223372036854775807, c := 0 },
    { opcode := .inc, a := 0, b := 0, c := 0 }]
  axionPolicyText := []
  fits := by decide

end T81VM.VM
