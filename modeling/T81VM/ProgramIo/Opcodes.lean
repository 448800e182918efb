import Mathlib.Data.List.DropRight
import T81VM.Tisc.Program

/-!
# Opcode names

The names of the opcodes in program artifacts, and the trimming of lines.
-/

namespace T81VM.ProgramIo

open Tisc

/-- `std::toupper` in the C locale. -/
def toUpper (byte : UInt8) : UInt8 :=
  if 97 ≤ byte ∧ byte ≤ 122 then byte - 32 else byte

/-- The comparisons of `opcode_from_string`, in order. -/
def opcodeNames : List (Text × Opcode) :=
  [(text "NOP", .nop), (text "HALT", .halt), (text "LOADIMM", .loadImm),
    (text "LOAD", .load), (text "STORE", .store), (text "ADD", .add),
    (text "SUB", .sub), (text "MUL", .mul), (text "DIV", .div),
    (text "MOD", .mod), (text "JUMP", .jump), (text "JMP", .jump),
    (text "JUMPIFZERO", .jumpIfZero), (text "JZ", .jumpIfZero),
    (text "JUMPIFNOTZERO", .jumpIfNotZero), (text "JNZ", .jumpIfNotZero),
    (text "JUMPIFNEGATIVE", .jumpIfNegative), (text "JN", .jumpIfNegative),
    (text "JUMPIFPOSITIVE", .jumpIfPositive), (text "JP", .jumpIfPositive),
    (text "MOV", .mov), (text "INC", .inc), (text "DEC", .dec),
    (text "CMP", .cmp), (text "PUSH", .push), (text "POP", .pop),
    (text "CALL", .call), (text "RET", .ret), (text "TRAP", .trap),
    (text "NEG", .neg), (text "I2F", .i2F), (text "F2I", .f2I),
    (text "I2FRAC", .i2Frac), (text "FRAC2I", .frac2I), (text "FADD", .fAdd),
    (text "FSUB", .fSub), (text "FMUL", .fMul), (text "FDIV", .fDiv),
    (text "FRACADD", .fracAdd), (text "FRACSUB", .fracSub),
    (text "FRACMUL", .fracMul), (text "FRACDIV", .fracDiv),
    (text "LESS", .less), (text "LT", .less), (text "LESSEQUAL", .lessEqual),
    (text "LE", .lessEqual), (text "GREATER", .greater),
    (text "GT", .greater), (text "GREATEREQUAL", .greaterEqual),
    (text "GE", .greaterEqual), (text "EQUAL", .equal), (text "EQ", .equal),
    (text "NOTEQUAL", .notEqual), (text "NEQ", .notEqual),
    (text "STACKALLOC", .stackAlloc), (text "STACKFREE", .stackFree),
    (text "HEAPALLOC", .heapAlloc), (text "HEAPFREE", .heapFree),
    (text "TNOT", .tNot), (text "TAND", .tAnd), (text "TOR", .tOr),
    (text "TXOR", .tXor), (text "AXREAD", .axRead), (text "AXSET", .axSet),
    (text "AXVERIFY", .axVerify), (text "TVECADD", .tVecAdd),
    (text "TMATMUL", .tMatMul), (text "TTENDOT", .tTenDot),
    (text "TVECMUL", .tVecMul), (text "TTRANSPOSE", .tTranspose),
    (text "TEXP", .tExp), (text "TSQRT", .tSqrt), (text "TSILU", .tSiLU),
    (text "TSOFTMAX", .tSoftmax), (text "TRMSNORM", .tRMSNorm),
    (text "TROPE", .tRoPE), (text "CHKSHAPE", .chkShape),
    (text "WEIGHTSLOAD", .weightsLoad), (text "SETF", .setF),
    (text "MAKEOPTIONSOME", .makeOptionSome),
    (text "MAKEOPTIONNONE", .makeOptionNone),
    (text "MAKERESULTOK", .makeResultOk),
    (text "MAKERESULTERR", .makeResultErr),
    (text "OPTIONISSOME", .optionIsSome),
    (text "OPTIONUNWRAP", .optionUnwrap), (text "RESULTISOK", .resultIsOk),
    (text "RESULTUNWRAPOK", .resultUnwrapOk),
    (text "RESULTUNWRAPERR", .resultUnwrapErr),
    (text "MAKEENUMVARIANT", .makeEnumVariant),
    (text "MAKEENUMVARIANTPAYLOAD", .makeEnumVariantPayload),
    (text "ENUMISVARIANT", .enumIsVariant),
    (text "ENUMUNWRAPPAYLOAD", .enumUnwrapPayload)]

/-- The name an opcode is compared by: no `_`, no `-`, capitals. -/
def normalize (raw : Text) : Text :=
  (raw.filter fun ch => !(isByte '_' ch || isByte '-' ch)).map toUpper

def opcodeFromString (raw : Text) : Option Opcode :=
  opcodeNames.lookup (normalize raw)

/-- Drop the spaces at both ends. -/
def trim (input : Text) : Text :=
  (input.dropWhile isSpace).rdropWhile isSpace

/-! ## The bytes of a name -/

/-- The bytes that occur in names: letters, digits, `_` and `-`. -/
def nameByte (byte : UInt8) : Bool :=
  (48 ≤ byte && byte ≤ 57) || (65 ≤ byte && byte ≤ 90) ||
    (97 ≤ byte && byte ≤ 122) || isByte '_' byte || isByte '-' byte

@[grind =] theorem nameByte_eq (byte : UInt8) :
    nameByte byte = ((48 ≤ byte && byte ≤ 57) || (65 ≤ byte && byte ≤ 90) ||
      (97 ≤ byte && byte ≤ 122) || byte == 95 || byte == 45) := rfl

theorem nameByte_of_toUpper (byte : UInt8) :
    nameByte (toUpper byte) = true → nameByte byte = true := by
  grind [toUpper]

theorem not_isSpace_of_nameByte (byte : UInt8) :
    nameByte byte = true → isSpace byte = false := by
  grind

theorem opcodeNames_nameByte :
    ∀ entry ∈ opcodeNames, entry.1 ≠ [] ∧
      ∀ byte ∈ entry.1, nameByte byte = true := by
  decide

theorem mem_of_lookup {α β : Type} [BEq α] [LawfulBEq α] {key : α}
    {value : β} {list : List (α × β)} (found : list.lookup key = some value) :
    (key, value) ∈ list := by
  induction list with
  | nil => cases found
  | cons entry rest induction =>
      obtain ⟨other, content⟩ := entry
      rw [List.lookup_cons] at found
      split at found
      · rename_i same
        cases found
        rw [eq_of_beq same]
        exact List.mem_cons_self
      · exact List.mem_cons_of_mem _ (induction found)

/-- Accepted names are not empty and have no other bytes. -/
theorem nameByte_of_opcodeFromString {name : Text} {opcode : Opcode}
    (spells : opcodeFromString name = some opcode) :
    name ≠ [] ∧ ∀ byte ∈ name, nameByte byte = true := by
  obtain ⟨nonempty, inside⟩ :=
    opcodeNames_nameByte _ (mem_of_lookup spells)
  constructor
  · rintro rfl
    exact nonempty rfl
  · intro byte member
    by_cases ignored : (isByte '_' byte || isByte '-' byte) = true
    · rw [nameByte, Bool.or_assoc, ignored, Bool.or_true]
    · apply nameByte_of_toUpper
      apply inside
      rw [normalize]
      apply List.mem_map_of_mem
      rw [List.mem_filter]
      exact ⟨member, by simpa using ignored⟩

/-! ## Trimming -/

/-- Nothing but spaces. -/
def Blank (blank : Text) : Prop :=
  ∀ byte ∈ blank, isSpace byte = true

instance (blank : Text) : Decidable (Blank blank) :=
  inferInstanceAs (Decidable (∀ byte ∈ blank, isSpace byte = true))

theorem Blank.append {left right : Text} (leftBlank : Blank left)
    (rightBlank : Blank right) : Blank (left ++ right) := by
  intro byte member
  rcases List.mem_append.mp member with inLeft | inRight
  · exact leftBlank byte inLeft
  · exact rightBlank byte inRight

theorem trim_blank {blank : Text} (spaces : Blank blank) :
    trim blank = [] := by
  rw [trim, List.dropWhile_eq_nil_iff.mpr spaces]
  rfl

/-- Spaces on both sides do not matter. -/
theorem trim_pad {left core right : Text} (leftBlank : Blank left)
    (rightBlank : Blank right) :
    trim (left ++ (core ++ right)) = trim core := by
  rw [trim, trim, List.dropWhile_append_of_pos leftBlank]
  by_cases empty : core.dropWhile isSpace = []
  · have blank : Blank core := List.dropWhile_eq_nil_iff.mp empty
    rw [List.dropWhile_append_of_pos blank, empty,
      List.dropWhile_eq_nil_iff.mpr rightBlank]
  · rw [List.dropWhile_append, if_neg (by simpa using empty), List.rdropWhile,
      List.rdropWhile, List.reverse_append,
      List.dropWhile_append_of_pos fun byte member =>
        rightBlank byte (List.mem_reverse.mp member)]

/-- A text without spaces at its ends stays as it is. -/
theorem trim_eq_self {core : Text}
    (first : ∀ byte ∈ core.head?, isSpace byte = false)
    (last : ∀ byte ∈ core.getLast?, isSpace byte = false) :
    trim core = core := by
  have front : core.dropWhile isSpace = core := by
    cases core with
    | nil => rfl
    | cons head tail =>
        exact List.dropWhile_cons_of_neg (by simp [first head rfl])
  rw [trim, front, List.rdropWhile_eq_self_iff]
  intro nonempty
  simp [last _ (List.getLast?_eq_some_getLast nonempty)]

/-- The first visible byte stays in front. -/
theorem trim_visible {indent rest : Text} {first : UInt8}
    (left : Blank indent) (visible : isSpace first = false) :
    ∃ others, trim (indent ++ first :: rest) = first :: others := by
  have front : (indent ++ first :: rest).dropWhile isSpace =
      first :: rest := by
    rw [List.dropWhile_append_of_pos left]
    exact List.dropWhile_cons_of_neg (by simp [visible])
  rw [trim, front]
  have starts := List.rdropWhile_prefix isSpace (first :: rest)
  cases kept : (first :: rest).rdropWhile isSpace with
  | nil =>
      have space := List.rdropWhile_eq_nil_iff.mp kept first
        List.mem_cons_self
      rw [visible] at space
      cases space
  | cons head others =>
      rw [kept] at starts
      obtain ⟨rfl, _⟩ := List.cons_prefix_cons.mp starts
      exact ⟨others, rfl⟩

/-- A trimmed text does not end with a space. -/
theorem last_of_trim {core : Text} (trimmed : trim core = core) :
    ∀ byte ∈ core.getLast?, isSpace byte = false := by
  intro byte last
  have again : core.rdropWhile isSpace = core := by
    rw [← trimmed, trim, List.rdropWhile_idempotent]
  obtain ⟨nonempty, same⟩ := List.mem_getLast?_eq_getLast last
  have ends := List.rdropWhile_eq_self_iff.mp again nonempty
  rw [same]
  exact Bool.eq_false_iff.mpr ends

end T81VM.ProgramIo
