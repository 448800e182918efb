import T81VM.ProgramIo.Loaders

/-!
# Rendering instructions

What both artifact formats write in the same way: opcode names, operands and
plain policy texts, and how the loaders read them back.
-/

namespace T81VM.ProgramIo

open Tisc

/-- An instruction with one of the names of its opcode. -/
structure Spelled where
  name : Text
  insn : Insn
  spells : opcodeFromString name = some insn.opcode

/-- The policy texts that both formats can carry: trimmed, without quotes,
backslashes and control characters. -/
structure PlainPolicy (policy : Text) : Prop where
  trimmed : trim policy = policy
  plain : ∀ byte ∈ policy, 32 ≤ byte ∧ byte ≠ 127 ∧
    isByte '"' byte = false ∧ isByte '\\' byte = false

/-- The decimal rendering of an operand. -/
def number (value : Int64) : Text :=
  Decimal.integer value.toInt

/-! ## Operands -/

/-- The bytes of a rendered number. -/
def numberByte (byte : UInt8) : Bool :=
  Decimal.isDigit byte || isByte '-' byte

@[grind =] theorem numberByte_eq (byte : UInt8) :
    numberByte byte = ((48 ≤ byte && byte ≤ 57) || byte == 45) := rfl

theorem isDigit_range (byte : UInt8) :
    Decimal.isDigit byte = true →
      isByte '-' byte = false ∧ isByte '+' byte = false ∧
        isSpace byte = false := by
  have minus : isByte '-' byte = (byte == 45) := rfl
  have plus : isByte '+' byte = (byte == 43) := rfl
  rw [minus, plus]
  grind [Decimal.isDigit]

theorem not_isDigit_of_isSpace (byte : UInt8) :
    isSpace byte = true → Decimal.isDigit byte = false := by
  grind [Decimal.isDigit]

theorem not_isSpace_of_numberByte (byte : UInt8) :
    numberByte byte = true → isSpace byte = false := by
  grind

/-- A rendered number is its sign and its digits. -/
theorem number_eq (value : Int64) :
    number value = (if value.toInt < 0 then [45] else [])
      ++ Decimal.natural value.toInt.natAbs := by
  rw [number, Decimal.integer]
  split <;> rfl

theorem number_bytes (value : Int64) :
    ∀ byte ∈ number value, numberByte byte = true := by
  intro byte member
  rw [number_eq, List.mem_append] at member
  rcases member with sign | digit
  · split at sign
    · rw [List.mem_singleton] at sign
      subst sign
      rfl
    · cases sign
  · rw [numberByte, Decimal.natural_isDigit _ byte digit, Bool.true_or]

theorem number_ne_nil (value : Int64) : number value ≠ [] := by
  rw [number_eq]
  intro empty
  exact Decimal.natural_ne_nil _ (List.append_eq_nil_iff.mp empty).2

/-- The ways to write the sign of an integer, and whether it negates. -/
inductive Signed : Bool → Text → Prop where
  | plain : Signed false []
  | plus : Signed false (text "+")
  | minus : Signed true (text "-")

/-- Splitting off the sign of an integer. -/
theorem splitSign_signed {negative : Bool} {sign digits rest : Text}
    (signed : Signed negative sign) (nonempty : digits ≠ [])
    (decimal : ∀ byte ∈ digits, Decimal.isDigit byte = true) :
    splitSign (sign ++ digits ++ rest) = (negative, digits ++ rest) := by
  cases signed with
  | plus => rfl
  | minus => rfl
  | plain =>
      obtain ⟨digit, others, rfl⟩ := List.exists_cons_of_ne_nil nonempty
      obtain ⟨notMinus, notPlus, _⟩ :=
        isDigit_range digit (decimal digit List.mem_cons_self)
      simp only [List.nil_append, List.cons_append, splitSign, notMinus,
        notPlus, Bool.false_eq_true, if_false]

/-- Splitting the sign off a rendered number. -/
theorem splitSign_number (value : Int64) (rest : Text) :
    splitSign (number value ++ rest) = (decide (value.toInt < 0),
      Decimal.natural value.toInt.natAbs ++ rest) := by
  have nonempty := Decimal.natural_ne_nil value.toInt.natAbs
  have digits := Decimal.natural_isDigit value.toInt.natAbs
  rw [number_eq]
  by_cases negative : value.toInt < 0
  · rw [if_pos negative, decide_eq_true negative]
    exact splitSign_signed .minus nonempty digits
  · rw [if_neg negative, decide_eq_false negative]
    exact splitSign_signed .plain nonempty digits

/-- The sign and the magnitude determine the word. -/
theorem signedWord_of_toInt {negative : Bool} {magnitude : Nat} {value : Int64}
    (same : value.toInt =
      if negative then -(magnitude : Int) else magnitude) :
    signedWord negative magnitude = some value := by
  have upper := value.toInt_lt
  have lower := value.le_toInt
  have back := Int64.ofInt_toInt value
  cases negative with
  | true =>
      rw [if_pos rfl] at same
      have small : magnitude ≤ 2 ^ 63 := by omega
      rw [signedWord, if_pos rfl, if_pos small, ← same, back]
  | false =>
      rw [if_neg (by decide)] at same
      have small : magnitude < 2 ^ 63 := by omega
      rw [signedWord, if_neg (by decide), if_pos small, ← same, back]

theorem signedWord_eq_some_iff {negative : Bool} {magnitude : Nat}
    {value : Int64} : signedWord negative magnitude = some value ↔
      value.toInt = if negative then -(magnitude : Int) else magnitude := by
  constructor
  · intro word
    cases negative with
    | true =>
        rw [signedWord, if_pos rfl] at word
        split at word
        · rename_i small
          cases word
          rw [if_pos rfl]
          exact Int64.toInt_ofInt_of_le (by omega) (by omega)
        · cases word
    | false =>
        rw [signedWord, if_neg (by decide)] at word
        split at word
        · rename_i small
          cases word
          rw [if_neg (by decide)]
          exact Int64.toInt_ofInt_of_le (by omega) (by omega)
        · cases word
  · exact signedWord_of_toInt

theorem signedWord_toInt (value : Int64) :
    signedWord (decide (value.toInt < 0)) value.toInt.natAbs =
      some value := by
  apply signedWord_of_toInt
  by_cases negative : value.toInt < 0
  · rw [if_pos (decide_eq_true negative)]
    omega
  · rw [if_neg (by simpa using negative)]
    omega

/-- `std::stoll` reads a rendered number back. -/
theorem stoll_number (value : Int64) : stoll (number value) = .ok value := by
  have split := splitSign_number value []
  rw [List.append_nil, List.append_nil] at split
  rw [stoll, split]
  simp only [Decimal.value_natural, signedWord_toInt]

/-! ## Programs -/

/-- An instruction fits behind fewer than the most. -/
theorem pushInsn_room {program : Program} (insn : Insn)
    (room : program.insns.length < maxInsns) :
    ∃ next, pushInsn program insn = .ok next ∧
      next.insns = program.insns ++ [insn] ∧
      next.axionPolicyText = program.axionPolicyText := by
  rw [pushInsn, dif_pos room]
  exact ⟨_, rfl, rfl, rfl⟩

/-- Adding instructions one by one builds any program. -/
theorem foldlM_pushInsn {insns : List Insn} {program target : Program}
    (policy : target.axionPolicyText = program.axionPolicyText)
    (all : target.insns = program.insns ++ insns) :
    insns.foldlM pushInsn program = .ok target := by
  induction insns generalizing program with
  | nil =>
      rw [List.append_nil] at all
      have same : program = target := by
        cases program
        cases target
        simp only at policy all
        subst policy
        subst all
        rfl
      rw [same]
      rfl
  | cons insn rest induction =>
      have room : program.insns.length < maxInsns := by
        have bound := target.fits
        rw [all, List.length_append, List.length_cons] at bound
        omega
      rw [List.foldlM_cons, pushInsn, dif_pos room]
      refine bind_eq_ok.mpr ⟨_, rfl, induction policy ?_⟩
      rw [all, List.append_assoc]
      rfl

end T81VM.ProgramIo
