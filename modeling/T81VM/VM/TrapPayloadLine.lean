import T81VM.Library.Decimal
import T81VM.Library.PrefixCode
import T81VM.VM.Summary

/-!
# The trap payload line

`trapPayloadSummaryLine` prints a trap payload on one line.  The fields before
the detail end at the first space, and the detail is escaped up to its closing
quote, so the line determines the payload.
-/

namespace T81VM.VM

open Tisc PrefixCode

/-- What `escape_payload_detail` appends for one character. -/
def escapeChar (ch : UInt8) : Text :=
  if isByte '"' ch || isByte '\\' ch then text "\\" ++ [ch]
  else if isByte '\n' ch then text "\\n"
  else [ch]

def escapePayloadDetail (input : Text) : Text :=
  input.foldl (fun out ch => out ++ escapeChar ch) []

def payloadLine (payload : TrapPayload) : Text :=
  text "TRAP_PAYLOAD"
    ++ text " trap=" ++ payload.trap.name
    ++ text " pc=" ++ Decimal.natural payload.pc
    ++ text " opcode=" ++ Decimal.natural payload.opcode.ordinal
    ++ text " a=" ++ Decimal.integer payload.a.toInt
    ++ text " b=" ++ Decimal.integer payload.b.toInt
    ++ text " c=" ++ Decimal.integer payload.c.toInt
    ++ text " segment=" ++ payload.segment.name
    ++ text " detail=\"" ++ escapePayloadDetail payload.detail ++ text "\""

/-- The line of the last trap, empty when there was none. -/
def trapPayloadSummaryLine (state : State) : Text :=
  match state.lastTrapPayload with
  | none => []
  | some payload => payloadLine payload

/-! ## Names and numbers -/

def Trap.all : List Trap :=
  [.none, .decodeFault, .typeFault, .boundsFault, .stackFault,
    .divisionFault, .securityFault, .shapeFault, .trapInstruction]

theorem Trap.find_name (trap : Trap) :
    Trap.all.find? (fun other => other.name == trap.name) = some trap := by
  cases trap <;> rfl

theorem Trap.name_injective : Function.Injective Trap.name := by
  intro left right same
  apply Option.some.inj
  rw [← left.find_name, ← right.find_name, same]

def MemorySegmentKind.all : List MemorySegmentKind :=
  [.unknown, .code, .stack, .heap, .tensor, .metaSegment]

theorem MemorySegmentKind.find_name (kind : MemorySegmentKind) :
    MemorySegmentKind.all.find? (fun other => other.name == kind.name) =
      some kind := by
  cases kind <;> rfl

theorem MemorySegmentKind.name_injective :
    Function.Injective MemorySegmentKind.name := by
  intro left right same
  apply Option.some.inj
  rw [← left.find_name, ← right.find_name, same]

/-- A letter of a name. -/
def isLetter (byte : UInt8) : Bool :=
  (65 ≤ byte && byte ≤ 90) || (97 ≤ byte && byte ≤ 122)

theorem Trap.name_isLetter (trap : Trap) :
    ∀ byte ∈ trap.name, isLetter byte = true := by
  cases trap <;> decide

theorem MemorySegmentKind.name_isLetter (kind : MemorySegmentKind) :
    ∀ byte ∈ kind.name, isLetter byte = true := by
  cases kind <;> decide

/-- A byte that is no letter is in no name. -/
theorem not_mem_of_isLetter {name : Text} {byte : UInt8}
    (letters : ∀ byte ∈ name, isLetter byte = true)
    (other : isLetter byte = false) : byte ∉ name := by
  intro member
  rw [letters byte member] at other
  cases other

theorem not_mem_natural {number : Nat} {byte : UInt8}
    (other : Decimal.isDigit byte = false) :
    byte ∉ Decimal.natural number := by
  intro member
  rw [Decimal.natural_isDigit number byte member] at other
  cases other

theorem not_mem_integer {number : Int} {byte : UInt8}
    (other : Decimal.isDigit byte = false) (noSign : byte ≠ 45) :
    byte ∉ Decimal.integer number := by
  intro member
  rcases Decimal.integer_bytes number byte member with sign | digit
  · exact noSign sign
  · rw [digit] at other
    cases other

/-! ## The escaped detail -/

theorem escapePayloadDetail_eq_flatMap (input : Text) :
    escapePayloadDetail input = input.flatMap escapeChar :=
  List.flatMap_eq_foldl.symm

/-- The three forms of an escaped character. -/
theorem escapeChar_cases (ch : UInt8) :
    ((ch = 34 ∨ ch = 92) ∧ escapeChar ch = [92, ch]) ∨
      (ch = 10 ∧ escapeChar ch = [92, 110]) ∨
      (ch ≠ 34 ∧ ch ≠ 92 ∧ ch ≠ 10 ∧ escapeChar ch = [ch]) := by
  by_cases quote : ch = 34
  · subst quote
    exact .inl ⟨.inl rfl, rfl⟩
  · by_cases backslash : ch = 92
    · subst backslash
      exact .inl ⟨.inr rfl, rfl⟩
    · by_cases newline : ch = 10
      · subst newline
        exact .inr (.inl ⟨rfl, rfl⟩)
      · refine .inr (.inr ⟨quote, backslash, newline, ?_⟩)
        have noQuote : isByte '"' ch = false := beq_eq_false_iff_ne.mpr quote
        have noBackslash : isByte '\\' ch = false :=
          beq_eq_false_iff_ne.mpr backslash
        have noNewline : isByte '\n' ch = false :=
          beq_eq_false_iff_ne.mpr newline
        rw [escapeChar, noQuote, noBackslash, noNewline]
        rfl

/-- Read one character of a detail, up to the closing quote. -/
def unescapeChar : Text → Option (UInt8 × Text)
  | [] => none
  | ch :: rest =>
      if ch = 34 then none
      else if ch = 92 then
        match rest with
        | [] => none
        | escaped :: rest =>
            some (if escaped = 110 then 10 else escaped, rest)
      else some (ch, rest)

theorem unescapeChar_escapeChar (ch : UInt8) (rest : Text) :
    unescapeChar (escapeChar ch ++ rest) = some (ch, rest) := by
  rcases escapeChar_cases ch with
    ⟨special, form⟩ | ⟨rfl, form⟩ | ⟨quote, backslash, _, form⟩
  · rw [form]
    rcases special with rfl | rfl <;> rfl
  · rw [form]
    rfl
  · rw [form, List.singleton_append, unescapeChar.eq_def]
    simp only [quote, backslash, if_false]

/-- An escaped detail is read back up to its closing quote. -/
theorem escapeChar_readable : Readable escapeChar (text "\"") :=
  readable_of_reader unescapeChar unescapeChar_escapeChar fun _ => rfl

theorem escapePayloadDetail_injective :
    Function.Injective escapePayloadDetail := by
  intro first second same
  rw [escapePayloadDetail_eq_flatMap, escapePayloadDetail_eq_flatMap] at same
  exact escapeChar_readable.flatMap_injective same

/-- The closing quote of a detail is the first one that is not escaped. -/
theorem escapePayloadDetail_closes {first second rest rest' : Text}
    (same : escapePayloadDetail first ++ (text "\"" ++ rest) =
      escapePayloadDetail second ++ (text "\"" ++ rest')) :
    first = second ∧ rest = rest' := by
  rw [escapePayloadDetail_eq_flatMap, escapePayloadDetail_eq_flatMap] at same
  exact escapeChar_readable.flatMap_inj same

theorem newline_not_mem_escapePayloadDetail (input : Text) :
    10 ∉ escapePayloadDetail input := by
  rw [escapePayloadDetail_eq_flatMap, List.mem_flatMap]
  rintro ⟨ch, _, member⟩
  rcases escapeChar_cases ch with
    ⟨special, form⟩ | ⟨_, form⟩ | ⟨_, _, newline, form⟩ <;>
  rw [form] at member
  · rcases special with rfl | rfl <;> exact absurd member (by decide)
  · exact absurd member (by decide)
  · exact newline (List.mem_singleton.mp member).symm

/-! ## The line -/

theorem newline_not_mem_payloadLine (payload : TrapPayload) :
    10 ∉ payloadLine payload := by
  have trap : 10 ∉ payload.trap.name :=
    not_mem_of_isLetter payload.trap.name_isLetter rfl
  have segment : 10 ∉ payload.segment.name :=
    not_mem_of_isLetter payload.segment.name_isLetter rfl
  have pc : 10 ∉ Decimal.natural payload.pc := not_mem_natural rfl
  have opcode : 10 ∉ Decimal.natural payload.opcode.ordinal :=
    not_mem_natural rfl
  have operand : ∀ value : Int64, 10 ∉ Decimal.integer value.toInt :=
    fun _ => not_mem_integer rfl (by decide)
  have detail := newline_not_mem_escapePayloadDetail payload.detail
  unfold payloadLine
  simp only [List.append_assoc, List.mem_append, not_or]
  exact ⟨by decide, by decide, trap, by decide, pc, by decide, opcode,
    by decide, operand _, by decide, operand _, by decide, operand _,
    by decide, segment, by decide, detail, by decide⟩

/-- The line shows every field of the payload. -/
theorem payloadLine_injective : Function.Injective payloadLine := by
  intro first second same
  have trapClean : ∀ trap : Trap, 32 ∉ trap.name :=
    fun trap => not_mem_of_isLetter trap.name_isLetter rfl
  have segmentClean : ∀ kind : MemorySegmentKind, 32 ∉ kind.name :=
    fun kind => not_mem_of_isLetter kind.name_isLetter rfl
  have numberClean : ∀ number, 32 ∉ Decimal.natural number :=
    fun _ => not_mem_natural rfl
  have operandClean : ∀ value : Int64, 32 ∉ Decimal.integer value.toInt :=
    fun _ => not_mem_integer rfl (by decide)
  unfold payloadLine at same
  simp only [List.append_assoc] at same
  have afterHead := List.append_cancel_left
    (List.append_cancel_left same)
  obtain ⟨trap, afterTrap⟩ :=
    field_inj rfl (trapClean _) (trapClean _) afterHead
  obtain ⟨pc, afterPc⟩ :=
    field_inj rfl (numberClean _) (numberClean _) afterTrap
  obtain ⟨opcode, afterOpcode⟩ :=
    field_inj rfl (numberClean _) (numberClean _) afterPc
  obtain ⟨a, afterA⟩ :=
    field_inj rfl (operandClean _) (operandClean _) afterOpcode
  obtain ⟨b, afterB⟩ :=
    field_inj rfl (operandClean _) (operandClean _) afterA
  obtain ⟨c, afterC⟩ :=
    field_inj rfl (operandClean _) (operandClean _) afterB
  obtain ⟨segment, afterSegment⟩ :=
    field_inj rfl (segmentClean _) (segmentClean _) afterC
  have afterLabel : escapePayloadDetail first.detail ++ (text "\"" ++ []) =
      escapePayloadDetail second.detail ++ (text "\"" ++ []) :=
    afterSegment
  obtain ⟨detail, _⟩ := escapePayloadDetail_closes afterLabel
  have sameTrap := Trap.name_injective trap
  have samePc := Decimal.natural_injective pc
  have sameOpcode := Opcode.ordinal_inj (Decimal.natural_injective opcode)
  have sameA := Int64.toInt_inj.mp (Decimal.integer_injective a)
  have sameB := Int64.toInt_inj.mp (Decimal.integer_injective b)
  have sameC := Int64.toInt_inj.mp (Decimal.integer_injective c)
  have sameSegment := MemorySegmentKind.name_injective segment
  obtain ⟨_, _, _, _, _, _, _, _⟩ := first
  subst sameTrap samePc sameOpcode sameA sameB sameC sameSegment detail
  rfl

/-- The line of a trap payload has no line break and shows the payload, whose
detail ends at the first quote that is not escaped. -/
theorem trapPayloadSummaryLine_faithful :
    (∀ state, 10 ∉ trapPayloadSummaryLine state) ∧
      (∀ first second,
        trapPayloadSummaryLine first = trapPayloadSummaryLine second →
          first.lastTrapPayload = second.lastTrapPayload) ∧
      Function.Injective escapePayloadDetail ∧
      ∀ first second rest rest' : Text,
        escapePayloadDetail first ++ (text "\"" ++ rest) =
          escapePayloadDetail second ++ (text "\"" ++ rest') →
            first = second ∧ rest = rest' := by
  have headed : ∀ payload, payloadLine payload ≠ [] := by
    intro payload empty
    unfold payloadLine at empty
    simp only [List.append_assoc] at empty
    exact absurd (List.append_eq_nil_iff.mp empty).1 (by decide)
  refine ⟨?_, ?_, escapePayloadDetail_injective,
    fun _ _ _ _ => escapePayloadDetail_closes⟩
  · intro state
    unfold trapPayloadSummaryLine
    cases state.lastTrapPayload with
    | none => exact List.not_mem_nil
    | some payload => exact newline_not_mem_payloadLine payload
  · intro first second same
    unfold trapPayloadSummaryLine at same
    cases left : first.lastTrapPayload with
    | none =>
        cases right : second.lastTrapPayload with
        | none => rfl
        | some payload =>
            rw [left, right] at same
            exact absurd same.symm (headed payload)
    | some payload =>
        cases right : second.lastTrapPayload with
        | none =>
            rw [left, right] at same
            exact absurd same (headed payload)
        | some other =>
            rw [left, right] at same
            exact congrArg some (payloadLine_injective same)

end T81VM.VM
