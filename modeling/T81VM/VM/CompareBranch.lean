import T81VM.Library.SignedWord
import T81VM.VM.OperandRoles

/-!
# Comparing and branching

`Cmp` sets the flags from a difference, and the conditional jumps read them;
the comparison opcodes compare the registers themselves.  Both decide alike as
long as the difference has the sign of the comparison.
-/

namespace T81VM.VM

open Tisc PartialSystem

/-- The comparison a conditional jump stands for behind a `Cmp`. -/
def branchComparison : Opcode → Option Opcode
  | .jumpIfZero => some .equal
  | .jumpIfNegative => some .less
  | .jumpIfPositive => some .greater
  | .jumpIfNotZero => some .notEqual
  | _ => none

/-- The flag a conditional jump looks at. -/
def branchTaken (flags : Flags) : Opcode → Bool
  | .jumpIfZero => flags.zero
  | .jumpIfNegative => flags.negative
  | .jumpIfPositive => flags.positive
  | .jumpIfNotZero => !flags.zero
  | _ => false

/-- The flags of a value. -/
def flagsOf (value : Int64) : Flags :=
  { zero := value == 0, negative := value < 0, positive := value > 0 }

/-- Exactly one of the three flags is set. -/
def OneFlag (flags : Flags) : Prop :=
  [flags.zero, flags.negative, flags.positive].count true = 1

/-- The sign of a word is that of the comparison of two others. -/
structure SignMatches (value lhs rhs : Int64) : Prop where
  zero : value = 0 ↔ lhs = rhs
  negative : value < 0 ↔ lhs < rhs
  positive : 0 < value ↔ rhs < lhs

namespace SignMatches

variable {value lhs rhs : Int64}

/-- A difference that fits in the word has the sign of the comparison. -/
theorem of_representable (fits : Representable (lhs.toInt - rhs.toInt)) :
    SignMatches (lhs - rhs) lhs rhs := by
  have difference : (lhs - rhs).toInt = lhs.toInt - rhs.toInt := by
    rw [Int64.toInt_sub, SignedWord.bmod_eq fits.1 fits.2]
  refine ⟨?_, ?_, ?_⟩
  · rw [← Int64.toInt_inj, ← Int64.toInt_inj, difference]
    simp
    omega
  · rw [Int64.lt_iff_toInt_lt, Int64.lt_iff_toInt_lt, difference]
    simp
  · rw [Int64.lt_iff_toInt_lt, Int64.lt_iff_toInt_lt, difference]
    simp

/-- A difference that wraps around has the opposite sign. -/
theorem not_of_wrapped (overflows : ¬ Representable (lhs.toInt - rhs.toInt)) :
    ¬ SignMatches (lhs - rhs) lhs rhs := by
  intro matched
  have lower := lhs.le_toInt
  have upper := lhs.toInt_lt
  have otherLower := rhs.le_toInt
  have otherUpper := rhs.toInt_lt
  have negative := matched.negative
  rw [Int64.lt_iff_toInt_lt, Int64.lt_iff_toInt_lt, Int64.toInt_sub] at negative
  simp only [Representable, not_and_or, not_le, not_lt] at overflows
  simp only [Int64.toInt_zero] at negative
  rw [Int.bmod_def] at negative
  split at negative <;> omega

end SignMatches

namespace Host

variable {host : Host} {op : SignedOp} {value : Int64}

/-- The host evaluates in two's complement. -/
def Wraps (host : Host) : Prop :=
  ∀ op : SignedOp, ¬ op.Defined → host.onOverflow op = some op.wrapped

theorem onOverflow_of_signed (undefined : ¬ op.Defined)
    (evaluated : host.signed op = .ok value) :
    host.onOverflow op = some value := by
  rw [signed, if_neg undefined] at evaluated
  cases overflow : host.onOverflow op with
  | none =>
    simp only [overflow] at evaluated
    cases evaluated
  | some decided =>
    simp only [overflow] at evaluated
    exact congrArg some (Except.ok.inj evaluated)

theorem signed_of_onOverflow (undefined : ¬ op.Defined)
    (decided : host.onOverflow op = some value) :
    host.signed op = .ok value := by
  rw [signed, if_neg undefined]
  simp only [decided]

/-- A host in two's complement evaluates every operation. -/
theorem Wraps.signed_eq_ok (wraps : host.Wraps) (op : SignedOp) :
    host.signed op = .ok op.wrapped := by
  by_cases defined : op.Defined
  · exact host.signed_of_defined defined
  · exact signed_of_onOverflow defined (wraps op defined)

end Host

/-- A host in two's complement whose activations are left at zero. -/
def wrappingHost : Host :=
  { strictHost with onOverflow := fun op => some op.wrapped }

theorem wrappingHost_wraps : wrappingHost.Wraps := by
  intro op undefined
  rfl

namespace Interpreter

variable {host : Host} {vm : Interpreter} {cmp : Insn} {x y : Fin 243}
  {pc : Nat}

/-- The comparison completes and leaves one in its destination. -/
def WritesOne (host : Host) (vm : Interpreter) (insn : Insn)
    (pc : Nat) : Prop :=
  ∃ reg final, registerIndex insn.a = .ok reg ∧
    vm.execute host insn pc = .ok (.ok (), final) ∧
    final.state.registers reg = 1

/-- The jump goes to its target, or faults on it. -/
def Takes (host : Host) (vm : Interpreter) (jump : Insn) (pc : Nat) : Prop :=
  vm.execute host jump pc = vm.checkJumpTarget jump pc jump.a

/-- The jump goes on to the next instruction. -/
def FallsThrough (host : Host) (vm : Interpreter) (jump : Insn)
    (pc : Nat) : Prop :=
  vm.execute host jump pc = vm.finish jump pc

/-- `Cmp` completes and sets one flag, and behind it every conditional jump
is taken when its comparison of the same registers writes one, and falls
through when it does not. -/
structure BranchesAgree (host : Host) (cmp : Insn)
    (middle : Interpreter) : Prop where
  oneFlag : OneFlag middle.state.flags
  branches : ∀ jump comparison jumpPc comparisonPc,
    branchComparison jump.opcode = some comparison.opcode →
    validReg comparison.a = true →
    comparison.b = cmp.a → comparison.c = cmp.b →
      (WritesOne host middle comparison comparisonPc →
        Takes host middle jump jumpPc) ∧
      (¬ WritesOne host middle comparison comparisonPc →
        FallsThrough host middle jump jumpPc)

theorem execute_cmp (opcode : cmp.opcode = .cmp) :
    vm.execute host cmp pc = vm.executeCmp host cmp pc := by
  obtain ⟨_, a, b, c⟩ := cmp
  cases opcode
  rfl

/-- The machine behind a `Cmp` whose difference has a value. -/
theorem executeCmp_eq_ok {answer : Expected × Interpreter}
    (opcode : cmp.opcode = .cmp) (left : registerIndex cmp.a = .ok x)
    (right : registerIndex cmp.b = .ok y) :
    vm.execute host cmp pc = .ok answer ↔
      ∃ value, host.signed
          (.sub (vm.state.registers x) (vm.state.registers y)) = .ok value ∧
        answer = (vm.setFlags value).finished cmp pc := by
  have readLeft : vm.register cmp.a = .ok (vm.state.registers x) :=
    register_eq_ok.mpr ⟨x, left, rfl⟩
  have readRight : vm.register cmp.b = .ok (vm.state.registers y) :=
    register_eq_ok.mpr ⟨y, right, rfl⟩
  rw [execute_cmp opcode, executeCmp, readLeft, readRight]
  show (host.signed (.sub (vm.state.registers x) (vm.state.registers y)) >>=
    fun difference => (vm.setFlags difference).finish cmp pc) = .ok answer ↔ _
  rw [bind_eq_ok]
  constructor
  · intro executed
    obtain ⟨value, signed, rest⟩ := executed
    exact ⟨value, signed, finish_eq_ok.mp rest⟩
  · intro executed
    obtain ⟨value, signed, same⟩ := executed
    exact ⟨value, signed, finish_eq_ok.mpr same⟩

/-- The comparisons behind the conditional jumps share one branch. -/
theorem execute_comparison {insn : Insn} {branch : Opcode}
    (compares : branchComparison branch = some insn.opcode) :
    vm.execute host insn pc = vm.executeCompare insn pc := by
  obtain ⟨_, a, b, c⟩ := insn
  cases branch
  case jumpIfZero | jumpIfNotZero | jumpIfNegative | jumpIfPositive =>
    cases compares
    rfl
  all_goals cases compares

/-- A conditional jump looks at its flag. -/
theorem execute_branch {insn : Insn} {comparison : Opcode}
    (branches : branchComparison insn.opcode = some comparison) :
    vm.execute host insn pc =
      vm.executeJumpIf insn pc (branchTaken vm.state.flags insn.opcode) := by
  obtain ⟨opcode, a, b, c⟩ := insn
  cases opcode
  case jumpIfZero | jumpIfNotZero | jumpIfNegative | jumpIfPositive => rfl
  all_goals cases branches

/-- A comparison opcode writes the result of its comparison. -/
theorem writesOne_iff {insn : Insn} {branch : Opcode}
    (compares : branchComparison branch = some insn.opcode)
    (destination : validReg insn.a = true)
    (left : registerIndex insn.b = .ok x)
    (right : registerIndex insn.c = .ok y) :
    WritesOne host vm insn pc ↔
      compareResult insn.opcode (vm.state.registers x)
        (vm.state.registers y) = true := by
  obtain ⟨reg, index⟩ := registerIndex_of_validReg destination
  have executed : vm.execute host insn pc = .ok (vm.wrote insn pc reg
      (if compareResult insn.opcode (vm.state.registers x)
        (vm.state.registers y) then 1 else 0) .int) := by
    have readLeft : vm.register insn.b = .ok (vm.state.registers x) :=
      register_eq_ok.mpr ⟨x, left, rfl⟩
    have readRight : vm.register insn.c = .ok (vm.state.registers y) :=
      register_eq_ok.mpr ⟨y, right, rfl⟩
    rw [execute_comparison compares, executeCompare, readLeft, readRight]
    exact finishWrite_eq_ok.mpr ⟨reg, index, rfl⟩
  constructor
  · intro writes
    obtain ⟨written, final, sameIndex, answer, one⟩ := writes
    rw [index] at sameIndex
    rw [executed] at answer
    cases sameIndex
    cases answer
    by_cases result : compareResult insn.opcode (vm.state.registers x)
        (vm.state.registers y) = true
    · exact result
    · have zero : (0 : Int64) = 1 := by
        rw [if_neg result] at one
        exact (Function.update_self ..).symm.trans one
      exact absurd zero (by decide)
  · intro result
    rw [if_pos result] at executed
    exact ⟨reg, _, index, executed, Function.update_self ..⟩

/-- A jump to a negative target faults when it is taken. -/
theorem takes_ne_fallsThrough {branch : Insn} (target : branch.a = -1)
    (takes : Takes host vm branch pc) : ¬ FallsThrough host vm branch pc := by
  intro falls
  have same : vm.checkJumpTarget branch pc branch.a = vm.finish branch pc :=
    takes.symm.trans falls
  rw [checkJumpTarget, if_pos (Or.inl (by rw [target]; decide))] at same
  cases same

/-- The branches agree when one flag is set and every jump finds its flag set
as its comparison decides. -/
theorem branchesAgree_iff (left : registerIndex cmp.a = .ok x)
    (right : registerIndex cmp.b = .ok y) :
    BranchesAgree host cmp vm ↔
      OneFlag vm.state.flags ∧ ∀ branch comparison,
        branchComparison branch = some comparison →
        branchTaken vm.state.flags branch =
          compareResult comparison (vm.state.registers x)
            (vm.state.registers y) := by
  constructor
  · intro agree
    refine ⟨agree.oneFlag, ?_⟩
    intro opcode comparison compares
    -- an invalid target tells a taken jump from one that falls through
    let branch : Insn := { opcode, a := -1, b := 0, c := 0 }
    let other : Insn := { opcode := comparison, a := 0, b := cmp.a, c := cmp.b }
    have destination : validReg other.a = true :=
      show validReg 0 = true by decide
    obtain ⟨taken, passed⟩ :=
      agree.branches branch other 0 0 compares destination rfl rfl
    have writes : WritesOne host vm other 0 ↔
        compareResult comparison (vm.state.registers x)
          (vm.state.registers y) = true :=
      writesOne_iff compares destination left right
    have jumps : vm.execute host branch 0 =
        vm.executeJumpIf branch 0 (branchTaken vm.state.flags opcode) :=
      execute_branch compares
    by_cases result : compareResult comparison (vm.state.registers x)
        (vm.state.registers y) = true
    · have takes := taken (writes.mpr result)
      rw [result]
      by_contra unset
      rw [executeJumpIf, if_neg unset] at jumps
      exact takes_ne_fallsThrough rfl takes jumps
    · have falls := passed (fun one => result (writes.mp one))
      rw [Bool.not_eq_true] at result
      rw [result]
      by_contra set
      rw [Bool.not_eq_false] at set
      rw [executeJumpIf, if_pos set] at jumps
      exact takes_ne_fallsThrough rfl jumps falls
  · intro given
    obtain ⟨oneFlag, decides⟩ := given
    refine ⟨oneFlag, ?_⟩
    intro branch comparison branchPc comparisonPc compares destination
      sameLeft sameRight
    have writes : WritesOne host vm comparison comparisonPc ↔
        compareResult comparison.opcode (vm.state.registers x)
          (vm.state.registers y) = true :=
      writesOne_iff compares destination (by rw [sameLeft]; exact left)
        (by rw [sameRight]; exact right)
    have jumps : vm.execute host branch branchPc = vm.executeJumpIf branch
        branchPc (branchTaken vm.state.flags branch.opcode) :=
      execute_branch compares
    have flag := decides branch.opcode comparison.opcode compares
    constructor
    · intro one
      rw [executeJumpIf, flag, if_pos (writes.mp one)] at jumps
      exact jumps
    · intro notOne
      rw [executeJumpIf, flag, if_neg (fun set => notOne (writes.mpr set))]
        at jumps
      exact jumps

/-- Flags that come from a value have one flag set. -/
theorem oneFlag_flagsOf (value : Int64) : OneFlag (flagsOf value) := by
  have zero : value = 0 ↔ value.toInt = 0 := by
    rw [← Int64.toInt_inj, Int64.toInt_zero]
  have negative : value < 0 ↔ value.toInt < 0 := by
    rw [Int64.lt_iff_toInt_lt, Int64.toInt_zero]
  have positive : value > 0 ↔ 0 < value.toInt := by
    rw [gt_iff_lt, Int64.lt_iff_toInt_lt, Int64.toInt_zero]
  rcases lt_trichotomy value.toInt 0 with below | same | above
  · simp [OneFlag, flagsOf, zero, negative, positive, below, below.ne,
      below.le]
  · simp [OneFlag, flagsOf, zero.mpr same]
  · simp [OneFlag, flagsOf, zero, negative, positive, above, above.ne',
      above.le]

/-- The flags of a value decide as the comparisons of two words do when the
value has the sign of their comparison. -/
theorem flagsOf_decides_iff {value lhs rhs : Int64} :
    (∀ branch comparison, branchComparison branch = some comparison →
      branchTaken (flagsOf value) branch = compareResult comparison lhs rhs) ↔
      SignMatches value lhs rhs := by
  constructor
  · intro decides
    have zero := decides .jumpIfZero .equal rfl
    have negative := decides .jumpIfNegative .less rfl
    have positive := decides .jumpIfPositive .greater rfl
    refine ⟨?_, ?_, ?_⟩
    · simpa [branchTaken, flagsOf, compareResult] using zero
    · simpa [branchTaken, flagsOf, compareResult] using negative
    · simpa [branchTaken, flagsOf, compareResult] using positive
  · intro matched branch comparison compares
    cases branch
    case jumpIfZero =>
      cases compares
      simpa [branchTaken, flagsOf, compareResult] using matched.zero
    case jumpIfNegative =>
      cases compares
      simpa [branchTaken, flagsOf, compareResult] using matched.negative
    case jumpIfPositive =>
      cases compares
      simpa [branchTaken, flagsOf, compareResult] using matched.positive
    case jumpIfNotZero =>
      cases compares
      have equal := matched.zero
      simp only [branchTaken, flagsOf, compareResult, bne]
      by_cases same : lhs = rhs
      · simp [same, equal.mpr same]
      · have nonzero : ¬ value = 0 := fun zero => same (equal.mp zero)
        simp [same, nonzero]
    all_goals cases compares

/-- Behind a `Cmp` the branches agree when the value of the difference has
the sign of the comparison. -/
theorem branchesAgree_finished_iff {value : Int64}
    (left : registerIndex cmp.a = .ok x) (right : registerIndex cmp.b = .ok y) :
    BranchesAgree host cmp ((vm.setFlags value).finished cmp pc).2 ↔
      SignMatches value (vm.state.registers x) (vm.state.registers y) := by
  rw [branchesAgree_iff left right]
  constructor
  · intro agree
    exact flagsOf_decides_iff.mp agree.2
  · intro matched
    exact ⟨oneFlag_flagsOf value, flagsOf_decides_iff.mpr matched⟩

/-- `Cmp` completes, and the branches behind it agree with the comparisons. -/
def CmpAgrees (host : Host) (vm : Interpreter) (cmp : Insn)
    (pc : Nat) : Prop :=
  ∃ middle, vm.execute host cmp pc = .ok (.ok (), middle) ∧
    BranchesAgree host cmp middle

/-- `Cmp` agrees when its difference has a value with the right sign. -/
theorem cmpAgrees_iff_value (opcode : cmp.opcode = .cmp)
    (left : registerIndex cmp.a = .ok x) (right : registerIndex cmp.b = .ok y) :
    CmpAgrees host vm cmp pc ↔
      ∃ value, host.signed
          (.sub (vm.state.registers x) (vm.state.registers y)) = .ok value ∧
        SignMatches value (vm.state.registers x) (vm.state.registers y) := by
  constructor
  · intro agrees
    obtain ⟨middle, executed, agree⟩ := agrees
    obtain ⟨value, signed, same⟩ :=
      (executeCmp_eq_ok opcode left right).mp executed
    have final : middle = ((vm.setFlags value).finished cmp pc).2 :=
      congrArg Prod.snd same
    rw [final] at agree
    exact ⟨value, signed, (branchesAgree_finished_iff left right).mp agree⟩
  · intro given
    obtain ⟨value, signed, matched⟩ := given
    exact ⟨_, (executeCmp_eq_ok opcode left right).mpr ⟨value, signed, rfl⟩,
      (branchesAgree_finished_iff left right).mpr matched⟩

/-- Comparing and branching agrees with the comparison opcodes exactly when
the difference of the registers fits in a word, unless the host makes up a
result with the sign of the comparison. -/
theorem cmpAgrees_iff (opcode : cmp.opcode = .cmp)
    (left : registerIndex cmp.a = .ok x) (right : registerIndex cmp.b = .ok y) :
    CmpAgrees host vm cmp pc ↔
      Representable
        ((vm.state.registers x).toInt - (vm.state.registers y).toInt) ∨
      ∃ value, host.onOverflow
          (.sub (vm.state.registers x) (vm.state.registers y)) = some value ∧
        SignMatches value (vm.state.registers x) (vm.state.registers y) := by
  rw [cmpAgrees_iff_value opcode left right]
  constructor
  · intro agrees
    obtain ⟨value, signed, matched⟩ := agrees
    by_cases fits : Representable
      ((vm.state.registers x).toInt - (vm.state.registers y).toInt)
    · exact Or.inl fits
    · exact Or.inr ⟨value, Host.onOverflow_of_signed fits signed, matched⟩
  · intro given
    by_cases fits : Representable
      ((vm.state.registers x).toInt - (vm.state.registers y).toInt)
    · exact ⟨_, host.signed_of_defined fits, SignMatches.of_representable fits⟩
    · rcases given with defined | overflow
      · exact absurd defined fits
      · obtain ⟨value, decided, matched⟩ := overflow
        exact ⟨value, Host.signed_of_onOverflow fits decided, matched⟩

/-- On a host that wraps around the difference has to fit in a word. -/
theorem cmpAgrees_iff_of_wraps (wraps : host.Wraps) (opcode : cmp.opcode = .cmp)
    (left : registerIndex cmp.a = .ok x) (right : registerIndex cmp.b = .ok y) :
    CmpAgrees host vm cmp pc ↔ Representable
      ((vm.state.registers x).toInt - (vm.state.registers y).toInt) := by
  rw [cmpAgrees_iff_value opcode left right]
  constructor
  · intro agrees
    obtain ⟨value, signed, matched⟩ := agrees
    by_contra overflows
    have undefined : ¬ (SignedOp.sub (vm.state.registers x)
      (vm.state.registers y)).Defined := overflows
    have decided := Host.onOverflow_of_signed undefined signed
    rw [wraps _ undefined] at decided
    cases decided
    exact SignMatches.not_of_wrapped overflows matched
  · intro fits
    exact ⟨_, host.signed_of_defined fits, SignMatches.of_representable fits⟩

/-- Compare the least word with one and branch on a negative difference. -/
def compareLeast : Program where
  insns := [
    { opcode := .loadImm, a := 0, b := -9223372036854775808, c := 0 },
    { opcode := .loadImm, a := 1, b := 1, c := 0 },
    { opcode := .cmp, a := 0, b := 1, c := 0 },
    { opcode := .jumpIfNegative, a := 0, b := 0, c := 0 }]
  axionPolicyText := []
  fits := by decide

/-- The `Cmp` of the program, on a new object whose registers are zero. -/
theorem cmpAgrees_iff_compareLeast :
    CmpAgrees strictHost (freshlyLoaded compareLeast)
        { opcode := .cmp, a := 0, b := 1, c := 0 } 2 ↔
      Representable ((0 : Int64).toInt - (0 : Int64).toInt) ∨
      ∃ value, strictHost.onOverflow (.sub 0 0) = some value ∧
        SignMatches value 0 0 :=
  cmpAgrees_iff (x := 0) (y := 1) rfl rfl rfl

/-- Whether or not the host wraps around, the `Cmp` of an accepted program
with all operands in range disagrees with the comparison opcodes. -/
theorem not_cmpAgrees_compareLeast :
    validateProgram compareLeast = none ∧ WellFormed compareLeast ∧
    ∀ host, host = strictHost ∨ host = wrappingHost → ∃ vm,
      iterate (step host) 2 (freshlyLoaded compareLeast) = .ok vm ∧
      vm.Fetches { opcode := .cmp, a := 0, b := 1, c := 0 } ∧
      ¬ CmpAgrees host vm { opcode := .cmp, a := 0, b := 1, c := 0 }
        vm.state.pc := by
  have accepted : validateProgram compareLeast = none := rfl
  have wellFormed : WellFormed compareLeast :=
    wellFormed_iff.mpr ⟨validateProgram_eq_none_iff_otherwise.mp accepted,
      by unfold ConversionsInRange; decide⟩
  have overflows : ¬ Representable
      ((-9223372036854775808 : Int64).toInt - (1 : Int64).toInt) := by decide
  refine ⟨accepted, wellFormed, ?_⟩
  intro host either
  rcases either with strict | wraps
  · rw [strict]
    refine ⟨_, rfl, ⟨rfl, rfl, rfl⟩, ?_⟩
    intro agrees
    obtain ⟨value, signed, matched⟩ :=
      (cmpAgrees_iff_value (x := 0) (y := 1) rfl rfl rfl).mp agrees
    have undefined : ¬ (SignedOp.sub (-9223372036854775808) 1).Defined :=
      overflows
    have decided := Host.onOverflow_of_signed undefined signed
    cases decided
  · rw [wraps]
    refine ⟨_, rfl, ⟨rfl, rfl, rfl⟩, ?_⟩
    intro agrees
    have fits := (cmpAgrees_iff_of_wraps wrappingHost_wraps (x := 0) (y := 1)
      rfl rfl rfl).mp agrees
    apply overflows
    exact fits

end Interpreter

end T81VM.VM
