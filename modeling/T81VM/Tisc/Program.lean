import T81VM.Cxx

/-!
# TISC programs

Opcodes, instructions and programs as the virtual machine receives them.
-/

namespace T81VM

namespace Tisc

/-- The opcodes in the order of the source enumeration.  The enumeration has
type `std::uint8_t`, so an instruction can also hold one of the 175 bytes
above the last enumerator. -/
inductive Opcode where
  | nop | halt | loadImm | load | store | add | sub | mul | div | mod
  | jump | jumpIfZero | mov | inc | dec | cmp | push | pop | jumpIfNotZero
  | call | ret | trap | neg | jumpIfNegative | jumpIfPositive
  | i2F | f2I | i2Frac | frac2I | fAdd | fSub | fMul | fDiv
  | fracAdd | fracSub | fracMul | fracDiv
  | less | lessEqual | greater | greaterEqual | equal | notEqual
  | stackAlloc | stackFree | heapAlloc | heapFree
  | tNot | tAnd | tOr | tXor | axRead | axSet | axVerify
  | tVecAdd | tMatMul | tTenDot | tVecMul | tTranspose
  | tExp | tSqrt | tSiLU | tSoftmax | tRMSNorm | tRoPE
  | chkShape | weightsLoad | setF
  | makeOptionSome | makeOptionNone | makeResultOk | makeResultErr
  | optionIsSome | optionUnwrap | resultIsOk | resultUnwrapOk
  | resultUnwrapErr | makeEnumVariant | makeEnumVariantPayload
  | enumIsVariant | enumUnwrapPayload
  | undefined (excess : Fin 175)
  deriving DecidableEq, Repr

/-- The underlying value of an opcode. -/
def Opcode.ordinal : Opcode → Nat
  | .undefined excess => 81 + excess
  | opcode => opcode.ctorIdx

/-- The defined opcodes come first. -/
theorem Opcode.ordinal_cases (opcode : Opcode) :
    (∃ excess, opcode = .undefined excess) ∨
      opcode.ordinal = opcode.ctorIdx ∧ opcode.ctorIdx < 81 := by
  cases opcode with
  | undefined excess => exact .inl ⟨excess, rfl⟩
  | _ => exact .inr ⟨rfl, by decide⟩

theorem Opcode.ordinal_lt (opcode : Opcode) : opcode.ordinal < 256 := by
  obtain ⟨excess, rfl⟩ | ⟨ordinal, small⟩ := opcode.ordinal_cases
  · rw [ordinal]
    omega
  · omega

theorem Opcode.ordinal_inj {left right : Opcode}
    (same : left.ordinal = right.ordinal) : left = right := by
  obtain ⟨excess, rfl⟩ | ⟨defined, small⟩ := left.ordinal_cases
  · obtain ⟨other, rfl⟩ | ⟨defined, small⟩ := right.ordinal_cases
    · rw [ordinal, ordinal] at same
      have equal : excess = other := by omega
      rw [equal]
    · rw [ordinal] at same
      omega
  · obtain ⟨other, rfl⟩ | ⟨otherDefined, otherSmall⟩ := right.ordinal_cases
    · have large : (Opcode.undefined other).ordinal = 81 + other := rfl
      omega
    · have indices : left.ctorIdx = right.ctorIdx := by omega
      cases left with
      | undefined excess =>
          have large : (Opcode.undefined excess).ctorIdx = 81 := rfl
          omega
      | _ =>
          exact Opcode.ctorElim (motive := fun opcode => _ = opcode) _ right
            indices ⟨rfl⟩

structure Insn where
  opcode : Opcode
  a : Int64
  b : Int64
  c : Int64
  deriving DecidableEq

/-- `max_size()` of a `std::vector<Insn>`, whose elements take 32 bytes. -/
def maxInsns : Nat := ptrdiffMax / 32

/-- A program; its instruction vector is never longer than a vector can be. -/
structure Program where
  insns : List Insn
  axionPolicyText : Text
  fits : insns.length ≤ maxInsns
  deriving DecidableEq

theorem Program.length_lt (program : Program) :
    program.insns.length < 2 ^ 58 := by
  have bound := program.fits
  simp only [maxInsns, ptrdiffMax] at bound
  omega

/-- A program is its instructions and its policy. -/
theorem Program.eq_of_parts {one other : Program}
    (insns : one.insns = other.insns)
    (policy : one.axionPolicyText = other.axionPolicyText) : one = other := by
  cases one
  cases other
  cases insns
  cases policy
  rfl

end Tisc

end T81VM
