import Mathlib.Data.List.Forall2
import T81VM.VM.TrapPayloadLine

/-!
# The printed trace

`printTrace` prints one line for each trace entry, and `EntryShape` is the
entry shape that the compatibility contract states for these lines:
`pc:opcode[:write=rN:value:ValueTag][:trap=TrapName]`.
-/

namespace T81VM.VM

open Tisc PrefixCode

/-! ## Printing -/

def traceLine (entry : TraceEntry) : Text :=
  Decimal.natural entry.pc ++ text ":"
    ++ Decimal.natural entry.opcode.ordinal
    ++ (match entry.writeReg, entry.writeValue, entry.writeTag with
        | some reg, some value, some tag =>
            text ":write=r" ++ Decimal.natural reg ++ text "="
              ++ Decimal.integer value.toInt ++ text ":" ++ tag.name
        | _, _, _ => [])
    ++ (match entry.trap with
        | some trap => text ":trap=" ++ trap.name
        | none => [])

def printTrace (state : State) : Text :=
  state.trace.flatMap fun entry => traceLine entry ++ text "\n"

/-! ## The contract -/

/-- A numeral of a natural number. -/
def IsNatural (numeral : Text) (number : Nat) : Prop :=
  numeral ≠ [] ∧ (∀ byte ∈ numeral, Decimal.isDigit byte = true) ∧
    Decimal.value numeral = number

/-- A numeral of an integer, with a sign when it is negative. -/
def IsInteger (numeral : Text) (number : Int) : Prop :=
  (0 ≤ number ∧ IsNatural numeral number.natAbs) ∨
    (number < 0 ∧ ∃ digits, numeral = 45 :: digits ∧
      IsNatural digits number.natAbs)

/-- The fields of `write=rN:value:ValueTag`, or none. -/
def WriteFields :
    Option Nat → Option Int64 → Option ValueTag → List Text → Prop
  | some reg, some value, some tag, fields =>
      ∃ regNumeral valueNumeral, IsNatural regNumeral reg ∧
        IsInteger valueNumeral value.toInt ∧
        fields = [text "write=r" ++ regNumeral, valueNumeral, tag.name]
  | none, none, none, fields => fields = []
  | _, _, _, _ => False

/-- The field `trap=TrapName`, or none. -/
def trapFields : Option Trap → List Text
  | some trap => [text "trap=" ++ trap.name]
  | none => []

/-- The fields of an entry, which its line separates by colons. -/
def EntryFields (entry : TraceEntry) (fields : List Text) : Prop :=
  ∃ pc opcode write, IsNatural pc entry.pc ∧
    IsNatural opcode entry.opcode.ordinal ∧
    WriteFields entry.writeReg entry.writeValue entry.writeTag write ∧
    fields = pc :: opcode :: (write ++ trapFields entry.trap)

/-- `pc:opcode[:write=rN:value:ValueTag][:trap=TrapName]`. -/
def EntryShape (entry : TraceEntry) (line : Text) : Prop :=
  ∃ fields, EntryFields entry fields ∧
    line = (text ":").intercalate fields

/-- A text of terminated lines, one for each entry. -/
def TraceShape (entries : List TraceEntry) (output : Text) : Prop :=
  ∃ lines, List.Forall₂ EntryShape entries lines ∧
    output = lines.flatMap (· ++ text "\n")

/-- The write fields of an entry are all present or all absent. -/
def TraceEntry.WritePaired (entry : TraceEntry) : Prop :=
  (entry.writeReg.isSome ↔ entry.writeValue.isSome) ∧
    (entry.writeReg.isSome ↔ entry.writeTag.isSome)

/-- Every printed line has the shape of an entry, and the output is read back
as the trace. -/
structure TraceFaithful (state : State) : Prop where
  conforms : ∀ entry ∈ state.trace, ∃ denoted,
    EntryShape denoted (traceLine entry)
  recovered : ∀ entries,
    TraceShape entries (printTrace state) ↔ entries = state.trace

/-! ## The entry shape is unambiguous -/

theorem isNatural_natural (number : Nat) :
    IsNatural (Decimal.natural number) number :=
  ⟨Decimal.natural_ne_nil number, Decimal.natural_isDigit number,
    Decimal.value_natural number⟩

theorem IsNatural.unique {numeral : Text} {first second : Nat}
    (left : IsNatural numeral first) (right : IsNatural numeral second) :
    first = second :=
  left.2.2.symm.trans right.2.2

theorem IsNatural.not_mem {numeral : Text} {number : Nat} {byte : UInt8}
    (isNumeral : IsNatural numeral number)
    (other : Decimal.isDigit byte = false) : byte ∉ numeral := by
  intro member
  rw [isNumeral.2.1 byte member] at other
  cases other

theorem IsInteger.unique {numeral : Text} {first second : Int}
    (left : IsInteger numeral first) (right : IsInteger numeral second) :
    first = second := by
  rcases left with ⟨nonneg, digits⟩ | ⟨negative, magnitude, rfl, digits⟩ <;>
  rcases right with ⟨nonneg', digits'⟩ | ⟨negative', magnitude', same, digits'⟩
  · have magnitudes := digits.unique digits'
    omega
  · subst same
    exact absurd List.mem_cons_self (digits.not_mem rfl)
  · exact absurd List.mem_cons_self (digits'.not_mem rfl)
  · rw [(List.cons.inj same).2] at digits
    have magnitudes := digits.unique digits'
    omega

theorem IsInteger.not_mem {numeral : Text} {number : Int} {byte : UInt8}
    (isNumeral : IsInteger numeral number)
    (other : Decimal.isDigit byte = false) (noSign : byte ≠ 45) :
    byte ∉ numeral := by
  rcases isNumeral with ⟨_, digits⟩ | ⟨_, magnitude, rfl, digits⟩
  · exact digits.not_mem other
  · exact List.not_mem_cons_of_ne_of_not_mem noSign (digits.not_mem other)

theorem ValueTag.name_isLetter (tag : ValueTag) :
    ∀ byte ∈ tag.name, isLetter byte = true := by
  cases tag <;> decide

def ValueTag.all : List ValueTag :=
  [.int, .tensorHandle, .shapeHandle, .weightsTensorHandle, .optionHandle,
    .resultHandle, .enumHandle]

theorem ValueTag.find_name (tag : ValueTag) :
    ValueTag.all.find? (fun other => other.name == tag.name) = some tag := by
  cases tag <;> rfl

theorem ValueTag.name_injective : Function.Injective ValueTag.name := by
  intro left right same
  apply Option.some.inj
  rw [← left.find_name, ← right.find_name, same]

/-- A byte that no field has. -/
structure Outside (byte : UInt8) : Prop where
  noDigit : Decimal.isDigit byte = false
  noSign : byte ≠ 45
  noLetter : isLetter byte = false
  noEquals : byte ≠ 61

theorem Outside.not_mem_label {byte : UInt8} (outside : Outside byte)
    {label : Text} (letters : ∀ byte ∈ label,
      isLetter byte = true ∨ byte = 61) : byte ∉ label := by
  intro member
  rcases letters byte member with letter | equals
  · rw [outside.noLetter] at letter
    cases letter
  · exact outside.noEquals equals

theorem WriteFields.not_mem {reg : Option Nat} {value : Option Int64}
    {tag : Option ValueTag} {fields : List Text} {byte : UInt8}
    (write : WriteFields reg value tag fields) (outside : Outside byte) :
    ∀ field ∈ fields, byte ∉ field := by
  cases reg <;> cases value <;> cases tag <;> try exact write.elim
  · cases write
    exact fun _ member => absurd member List.not_mem_nil
  · obtain ⟨regNumeral, valueNumeral, isReg, isValue, rfl⟩ := write
    simp only [List.forall_mem_cons, List.mem_append, not_or]
    exact ⟨⟨outside.not_mem_label (by decide),
      isReg.not_mem outside.noDigit⟩,
      isValue.not_mem outside.noDigit outside.noSign,
      not_mem_of_isLetter (ValueTag.name_isLetter _) outside.noLetter,
      fun _ member => absurd member List.not_mem_nil⟩

theorem trapFields_not_mem {trap : Option Trap} {byte : UInt8}
    (outside : Outside byte) : ∀ field ∈ trapFields trap, byte ∉ field := by
  cases trap with
  | none => exact fun _ member => absurd member List.not_mem_nil
  | some trap =>
      intro field member
      rw [List.mem_singleton.mp member, List.mem_append, not_or]
      exact ⟨outside.not_mem_label (by decide),
        not_mem_of_isLetter trap.name_isLetter outside.noLetter⟩

theorem EntryFields.not_mem {entry : TraceEntry} {fields : List Text}
    {byte : UInt8} (shape : EntryFields entry fields)
    (outside : Outside byte) : ∀ field ∈ fields, byte ∉ field := by
  obtain ⟨pc, opcode, write, isPc, isOpcode, isWrite, rfl⟩ := shape
  simp only [List.forall_mem_cons, List.forall_mem_append]
  exact ⟨isPc.not_mem outside.noDigit, isOpcode.not_mem outside.noDigit,
    isWrite.not_mem outside, trapFields_not_mem outside⟩

/-- A write has three fields. -/
theorem WriteFields.length {reg : Option Nat} {value : Option Int64}
    {tag : Option ValueTag} {fields : List Text}
    (write : WriteFields reg value tag fields) :
    fields.length = 0 ∨ fields.length = 3 := by
  cases reg <;> cases value <;> cases tag <;> try exact write.elim
  · cases write
    exact .inl rfl
  · obtain ⟨_, _, _, _, rfl⟩ := write
    exact .inr rfl

/-- A trap has one field. -/
theorem trapFields_length (trap : Option Trap) :
    (trapFields trap).length = 0 ∨ (trapFields trap).length = 1 := by
  cases trap with
  | none => exact .inl rfl
  | some trap => exact .inr rfl

theorem trapFields_injective : Function.Injective trapFields := by
  intro left right same
  cases left <;> cases right
  · rfl
  · cases same
  · cases same
  · have names := List.append_cancel_left (List.cons.inj same).1
    exact congrArg some (Trap.name_injective names)

theorem WriteFields.unique {reg reg' : Option Nat}
    {value value' : Option Int64} {tag tag' : Option ValueTag}
    {fields : List Text} (left : WriteFields reg value tag fields)
    (right : WriteFields reg' value' tag' fields) :
    reg = reg' ∧ value = value' ∧ tag = tag' := by
  cases reg <;> cases value <;> cases tag <;> (try exact left.elim) <;>
  cases reg' <;> cases value' <;> cases tag' <;> try exact right.elim
  · exact ⟨rfl, rfl, rfl⟩
  · obtain ⟨_, _, _, _, impossible⟩ := right
    rw [left] at impossible
    cases impossible
  · obtain ⟨_, _, _, _, impossible⟩ := left
    rw [right] at impossible
    cases impossible
  · obtain ⟨regNumeral, valueNumeral, isReg, isValue, rfl⟩ := left
    obtain ⟨regNumeral', valueNumeral', isReg', isValue', same⟩ := right
    obtain ⟨sameReg, afterReg⟩ := List.cons.inj same
    obtain ⟨sameValue, afterValue⟩ := List.cons.inj afterReg
    rw [← List.append_cancel_left sameReg] at isReg'
    rw [← sameValue] at isValue'
    exact ⟨congrArg some (isReg.unique isReg'),
      congrArg some (Int64.toInt_inj.mp (isValue.unique isValue')),
      congrArg some (ValueTag.name_injective (List.cons.inj afterValue).1)⟩

/-- The number of fields tells which of them belong to the write. -/
theorem EntryFields.unique {entry other : TraceEntry} {fields : List Text}
    (left : EntryFields entry fields) (right : EntryFields other fields) :
    entry = other := by
  obtain ⟨pc, opcode, write, isPc, isOpcode, isWrite, rfl⟩ := left
  obtain ⟨pc', opcode', write', isPc', isOpcode', isWrite', same⟩ := right
  obtain ⟨rfl, afterPc⟩ := List.cons.inj same
  obtain ⟨rfl, afterOpcode⟩ := List.cons.inj afterPc
  have lengths := congrArg List.length afterOpcode
  rw [List.length_append, List.length_append] at lengths
  have writeLength := isWrite.length
  have writeLength' := isWrite'.length
  have trapLength := trapFields_length entry.trap
  have trapLength' := trapFields_length other.trap
  obtain ⟨rfl, traps⟩ := List.append_inj afterOpcode (by omega)
  obtain ⟨sameReg, sameValue, sameTag⟩ := isWrite.unique isWrite'
  have samePc := isPc.unique isPc'
  have sameOpcode := Opcode.ordinal_inj (isOpcode.unique isOpcode')
  have sameTrap := trapFields_injective traps
  obtain ⟨_, _, _, _, _, _⟩ := entry
  subst samePc sameOpcode sameReg sameValue sameTag sameTrap
  rfl

theorem EntryFields.ne_nil {entry : TraceEntry} {fields : List Text}
    (shape : EntryFields entry fields) : fields ≠ [] := by
  obtain ⟨_, _, _, _, _, _, rfl⟩ := shape
  exact List.cons_ne_nil _ _

theorem colon_outside : Outside 58 :=
  ⟨rfl, by decide, rfl, by decide⟩

theorem newline_outside : Outside 10 :=
  ⟨rfl, by decide, rfl, by decide⟩

/-- Fields without colons are read back from their line. -/
theorem intercalate_inj {fields others : List Text}
    (clean : ∀ field ∈ fields, 58 ∉ field) (some : fields ≠ [])
    (clean' : ∀ field ∈ others, 58 ∉ field) (some' : others ≠ [])
    (same : (text ":").intercalate fields = (text ":").intercalate others) :
    fields = others := by
  have split := List.splitOn_intercalate 58 clean some
  have split' := List.splitOn_intercalate 58 clean' some'
  have colon : text ":" = [58] := rfl
  rw [colon] at same
  rw [← split, same, split']

/-- A line has the bytes of its fields and colons. -/
theorem not_mem_intercalate {byte : UInt8} {fields : List Text}
    (noColon : byte ≠ 58) (clean : ∀ field ∈ fields, byte ∉ field) :
    byte ∉ (text ":").intercalate fields := by
  induction fields with
  | nil => exact List.not_mem_nil
  | cons field fields induction =>
      obtain ⟨head, tail⟩ := List.forall_mem_cons.mp clean
      cases fields with
      | nil =>
          rw [List.intercalate_singleton]
          exact head
      | cons next fields =>
          rw [List.intercalate_cons_cons, List.mem_append, List.mem_append,
            not_or, not_or]
          refine ⟨⟨head, ?_⟩, induction tail⟩
          exact fun member => noColon (List.mem_singleton.mp member)

theorem EntryShape.newline_not_mem {entry : TraceEntry} {line : Text}
    (shape : EntryShape entry line) : 10 ∉ line := by
  obtain ⟨fields, shape, rfl⟩ := shape
  exact not_mem_intercalate (by decide) (shape.not_mem newline_outside)

/-- A line has the shape of one entry at most. -/
theorem EntryShape.unique {entry other : TraceEntry} {line : Text}
    (left : EntryShape entry line) (right : EntryShape other line) :
    entry = other := by
  obtain ⟨fields, shape, rfl⟩ := left
  obtain ⟨fields', shape', same⟩ := right
  have sameFields := intercalate_inj (shape.not_mem colon_outside)
    shape.ne_nil (shape'.not_mem colon_outside) shape'.ne_nil same
  subst sameFields
  exact shape.unique shape'

/-! ## What is printed -/

/-- The field that is printed for a register and its value. -/
def printedWrite (reg : Nat) (value : Int64) : Text :=
  text "write=r" ++ Decimal.natural reg ++ text "="
    ++ Decimal.integer value.toInt

theorem WritePaired_cases {entry : TraceEntry} (paired : entry.WritePaired) :
    (entry.writeReg = none ∧ entry.writeValue = none ∧
      entry.writeTag = none) ∨
    ∃ reg value tag, entry.writeReg = some reg ∧
      entry.writeValue = some value ∧ entry.writeTag = some tag := by
  obtain ⟨pc, opcode, reg, value, tag, trap⟩ := entry
  obtain ⟨values, tags⟩ := paired
  cases reg <;> cases value <;> cases tag <;> simp_all

theorem traceLine_of_bare {entry : TraceEntry} (reg : entry.writeReg = none)
    (value : entry.writeValue = none) (tag : entry.writeTag = none) :
    traceLine entry = (text ":").intercalate
      (Decimal.natural entry.pc :: Decimal.natural entry.opcode.ordinal ::
        trapFields entry.trap) := by
  rw [traceLine, reg, value, tag]
  cases entry.trap with
  | none => simp [trapFields]
  | some trap =>
      have split : text ":trap=" = text ":" ++ text "trap=" := rfl
      simp [trapFields, split]

theorem traceLine_of_write {entry : TraceEntry} {reg : Nat} {value : Int64}
    {tag : ValueTag} (writes : entry.writeReg = some reg)
    (writesValue : entry.writeValue = some value)
    (writesTag : entry.writeTag = some tag) :
    traceLine entry = (text ":").intercalate
      (Decimal.natural entry.pc :: Decimal.natural entry.opcode.ordinal ::
        printedWrite reg value :: tag.name :: trapFields entry.trap) := by
  have write : text ":write=r" = text ":" ++ text "write=r" := rfl
  rw [traceLine, writes, writesValue, writesTag]
  cases entry.trap with
  | none => simp [trapFields, printedWrite, write]
  | some trap =>
      have split : text ":trap=" = text ":" ++ text "trap=" := rfl
      simp [trapFields, printedWrite, write, split]

/-- A line without a write has the shape of its entry. -/
theorem entryShape_traceLine {entry : TraceEntry}
    (paired : entry.WritePaired) (bare : entry.writeReg = none) :
    EntryShape entry (traceLine entry) := by
  rcases WritePaired_cases paired with
    ⟨reg, value, tag⟩ | ⟨reg, _, _, writes, _⟩
  · refine ⟨_, ⟨_, _, [], isNatural_natural _, isNatural_natural _, ?_, rfl⟩,
      traceLine_of_bare reg value tag⟩
    rw [reg, value, tag]
    rfl
  · rw [bare] at writes
    cases writes

/-- The printed field is not the first field of a write. -/
theorem WriteFields.ne_printedWrite {reg' : Option Nat}
    {value' : Option Int64} {tag' : Option ValueTag} {write : List Text}
    {reg : Nat} {value : Int64} {name : Text} {trap trap' : Option Trap}
    (isWrite : WriteFields reg' value' tag' write) :
    printedWrite reg value :: name :: trapFields trap ≠
      write ++ trapFields trap' := by
  intro same
  cases reg' <;> cases value' <;> cases tag' <;> try exact isWrite.elim
  · cases isWrite
    have lengths := congrArg List.length same
    have few := trapFields_length trap'
    simp only [List.length_cons, List.nil_append] at lengths
    omega
  · obtain ⟨numeral, _, isReg, _, rfl⟩ := isWrite
    have heads := (List.cons.inj same).1
    simp only [printedWrite, List.append_assoc] at heads
    have equals : 61 ∈ numeral := by
      rw [← List.append_cancel_left heads]
      exact List.mem_append_right _ List.mem_cons_self
    exact isReg.not_mem rfl equals

/-- A line with a write has the shape of no entry: an equals sign stands where
the shape has a colon. -/
theorem not_entryShape_traceLine {entry denoted : TraceEntry}
    (paired : entry.WritePaired) (writes : entry.writeReg ≠ none) :
    ¬ EntryShape denoted (traceLine entry) := by
  rcases WritePaired_cases paired with
    ⟨bare, _⟩ | ⟨reg, value, tag, isReg, isValue, isTag⟩
  · exact absurd bare writes
  rintro ⟨fields, shape, same⟩
  rw [traceLine_of_write isReg isValue isTag] at same
  have clean : ∀ field ∈ Decimal.natural entry.pc ::
      Decimal.natural entry.opcode.ordinal :: printedWrite reg value ::
      tag.name :: trapFields entry.trap, 58 ∉ field := by
    simp only [List.forall_mem_cons, printedWrite, List.mem_append, not_or]
    exact ⟨not_mem_natural rfl, not_mem_natural rfl,
      ⟨⟨⟨by decide, not_mem_natural rfl⟩, by decide⟩,
        not_mem_integer rfl (by decide)⟩,
      not_mem_of_isLetter tag.name_isLetter rfl,
      trapFields_not_mem colon_outside⟩
  have sameFields := intercalate_inj clean (List.cons_ne_nil _ _)
    (shape.not_mem colon_outside) shape.ne_nil same
  subst sameFields
  obtain ⟨_, _, write, _, _, isWrite, split⟩ := shape
  have afterOpcode := (List.cons.inj (List.cons.inj split).2).2
  exact isWrite.ne_printedWrite afterOpcode

/-- The lines of the trace, in a text in which each is terminated. -/
theorem printTrace_eq (state : State) :
    printTrace state =
      (state.trace.map traceLine).flatMap (· ++ text "\n") := by
  rw [printTrace, List.flatMap_map]

/-- Lines without writes are read back as their entries. -/
theorem forall₂_entryShape_iff {entries trace : List TraceEntry}
    (shaped : ∀ entry ∈ trace, EntryShape entry (traceLine entry)) :
    List.Forall₂ EntryShape entries (trace.map traceLine) ↔
      entries = trace := by
  rw [List.forall₂_map_right_iff]
  constructor
  · intro matched
    induction matched with
    | nil => rfl
    | cons head tail induction =>
        obtain ⟨first, rest⟩ := List.forall_mem_cons.mp shaped
        rw [head.unique first, induction rest]
  · rintro rfl
    exact List.forall₂_same.mpr shaped

theorem forall₂_newline_not_mem {entries : List TraceEntry}
    {lines : List Text} (matched : List.Forall₂ EntryShape entries lines) :
    ∀ line ∈ lines, (10 : UInt8) ∉ line := by
  induction matched with
  | nil => exact fun _ member => absurd member List.not_mem_nil
  | cons head tail induction =>
      exact List.forall_mem_cons.mpr ⟨head.newline_not_mem, induction⟩

/-- The output conforms to the contract and is read back exactly when no entry
of the trace has a write. -/
theorem traceFaithful_iff {state : State}
    (paired : ∀ entry ∈ state.trace, entry.WritePaired) :
    TraceFaithful state ↔
      ∀ entry ∈ state.trace, entry.writeReg = none := by
  constructor
  · intro faithful entry member
    by_contra writes
    obtain ⟨denoted, shape⟩ := faithful.conforms entry member
    exact not_entryShape_traceLine (paired entry member) writes shape
  · intro bare
    have shaped : ∀ entry ∈ state.trace,
        EntryShape entry (traceLine entry) :=
      fun entry member =>
        entryShape_traceLine (paired entry member) (bare entry member)
    refine ⟨fun entry member => ⟨entry, shaped entry member⟩, ?_⟩
    intro entries
    rw [← forall₂_entryShape_iff shaped]
    constructor
    · rintro ⟨lines, matched, same⟩
      have printed : List.Forall₂ EntryShape state.trace
          (state.trace.map traceLine) :=
        (forall₂_entryShape_iff shaped).mpr rfl
      rw [printTrace_eq] at same
      rw [terminated_inj (forall₂_newline_not_mem printed)
        (forall₂_newline_not_mem matched) same]
      exact matched
    · intro matched
      exact ⟨_, matched, printTrace_eq state⟩

/-- `Nop`, then a fault. -/
def faultTrace : State where
  trace := [
    { pc := 0, opcode := .nop, writeReg := none, writeValue := none
      writeTag := none, trap := none },
    { pc := 1, opcode := .trap, writeReg := none, writeValue := none
      writeTag := none, trap := some .trapInstruction }]

theorem traceFaithful_iff_faultTrace : TraceFaithful faultTrace := by
  apply (traceFaithful_iff _).mpr
  · intro entry member
    rcases List.mem_cons.mp member with rfl | rest
    · rfl
    · cases List.mem_singleton.mp rest
      rfl
  · intro entry member
    rcases List.mem_cons.mp member with rfl | rest
    · exact ⟨Iff.rfl, Iff.rfl⟩
    · cases List.mem_singleton.mp rest
      exact ⟨Iff.rfl, Iff.rfl⟩

/-- `LoadImm 0 5`. -/
def loadTrace : State where
  trace := [
    { pc := 0, opcode := .loadImm, writeReg := some 0, writeValue := some 5
      writeTag := some .int, trap := none }]

/-- `0:2:write=r0=5:Int` is printed where the contract has a colon between the
register and the value. -/
theorem not_traceFaithful_loadTrace :
    traceLine (loadTrace.trace.head (by decide)) =
        text "0:2:write=r0=5:Int" ∧
      ¬ ∀ state : State, (∀ entry ∈ state.trace, entry.WritePaired) →
        TraceFaithful state := by
  refine ⟨by decide, ?_⟩
  intro faithful
  have paired : ∀ entry ∈ loadTrace.trace, entry.WritePaired := by
    intro entry member
    cases List.mem_singleton.mp member
    exact ⟨Iff.rfl, Iff.rfl⟩
  obtain ⟨denoted, shape⟩ :=
    (faithful loadTrace paired).conforms _ List.mem_cons_self
  refine not_entryShape_traceLine (paired _ List.mem_cons_self) ?_ shape
  decide

end T81VM.VM
