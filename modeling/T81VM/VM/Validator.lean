import T81VM.VM.State

/-!
# Static validation

`validateProgram` inspects each instruction without any runtime state.
-/

namespace T81VM.VM

open Tisc

def registerCount : Nat := 243

def validReg (idx : Int64) : Bool :=
  idx ≥ 0 && toSize idx < registerCount

def validOpcode : Opcode → Bool
  | .undefined _ => false
  | _ => true

/-- A static jump target lies inside the instruction vector. -/
def validTarget (size : Nat) (target : Int64) : Bool :=
  !(target < 0 || toSize target ≥ size)

/-- The operand check of one instruction of a program with `size`
instructions. -/
def validOperands (size : Nat) (insn : Insn) : Bool :=
  match insn.opcode with
  | .loadImm => validReg insn.a
  | .load => validReg insn.a
  | .store => validReg insn.b
  | .div | .mod | .add | .sub | .mul
  | .fAdd | .fSub | .fMul | .fDiv
  | .fracAdd | .fracSub | .fracMul | .fracDiv
  | .less | .lessEqual | .greater | .greaterEqual | .equal | .notEqual
  | .tAnd | .tOr | .tXor
  | .tVecAdd | .tMatMul | .tTenDot | .tVecMul | .chkShape =>
      validReg insn.a && validReg insn.b && validReg insn.c
  | .makeOptionSome | .makeResultOk | .makeResultErr
  | .optionIsSome | .optionUnwrap
  | .resultIsOk | .resultUnwrapOk | .resultUnwrapErr
  | .makeEnumVariantPayload | .enumIsVariant | .enumUnwrapPayload
  | .tTranspose | .tExp | .tSqrt | .tSiLU | .tSoftmax | .tRMSNorm | .tRoPE
  | .tNot => validReg insn.a && validReg insn.b
  | .cmp => validReg insn.a && validReg insn.b
  | .mov => validReg insn.a && validReg insn.b
  | .inc | .dec | .push | .pop | .neg | .call
  | .i2F | .f2I | .i2Frac | .frac2I
  | .stackAlloc | .stackFree | .heapAlloc | .heapFree
  | .makeOptionNone | .makeEnumVariant
  | .axRead | .axVerify | .weightsLoad => validReg insn.a
  | .axSet | .setF => validReg insn.a && validReg insn.b
  | .jump | .jumpIfZero | .jumpIfNotZero | .jumpIfNegative
  | .jumpIfPositive => validTarget size insn.a
  | .nop | .halt | .ret | .trap => true
  | .undefined _ => true

/-- The loop over the instructions, leaving at the first rejected one. -/
def validateInsns (size : Nat) : List Insn → Option Trap
  | [] => none
  | insn :: rest =>
      if !validOpcode insn.opcode then
        some .decodeFault
      else if !validOperands size insn then
        some .decodeFault
      else
        validateInsns size rest

def validateProgram (program : Program) : Option Trap :=
  validateInsns program.insns.length program.insns

theorem validReg_iff {idx : Int64} :
    validReg idx = true ↔ toSize idx < 243 := by
  rw [validReg, registerCount, Bool.and_eq_true, decide_eq_true_iff,
    decide_eq_true_iff]
  constructor
  · exact And.right
  · intro small
    refine ⟨?_, small⟩
    by_contra negative
    have large := toSize_of_neg (Int64.not_le.mp negative)
    omega

theorem validTarget_iff {size : Nat} {target : Int64} :
    validTarget size target = true ↔ 0 ≤ target ∧ toSize target < size := by
  simp [validTarget, Int64.not_lt]

theorem validateInsns_eq_none_iff {size : Nat} {insns : List Insn} :
    validateInsns size insns = none ↔
      ∀ insn ∈ insns,
        validOpcode insn.opcode = true ∧ validOperands size insn = true := by
  induction insns with
  | nil => simp [validateInsns]
  | cons insn rest induction =>
      rw [validateInsns, List.forall_mem_cons, ← induction]
      by_cases known : validOpcode insn.opcode = true <;>
        by_cases operands : validOperands size insn = true <;>
        simp [known, operands]

/-- Acceptance, instruction by instruction. -/
theorem validateProgram_eq_none_iff {program : Program} :
    validateProgram program = none ↔
      ∀ insn ∈ program.insns,
        validOpcode insn.opcode = true ∧
          validOperands program.insns.length insn = true :=
  validateInsns_eq_none_iff

/-- The validator reports one trap code only. -/
theorem validateInsns_eq_some {size : Nat} {insns : List Insn} {code : Trap}
    (rejected : validateInsns size insns = some code) :
    code = .decodeFault := by
  induction insns with
  | nil => simp [validateInsns] at rejected
  | cons insn rest induction =>
      rw [validateInsns] at rejected
      split at rejected
      · simpa using rejected.symm
      · split at rejected
        · simpa using rejected.symm
        · exact induction rejected

end T81VM.VM
