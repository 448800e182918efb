import Mathlib.Tactic.IntervalCases
import T81VM.VM.HashWords
import T81VM.VM.Tensor

/-!
# Reading a state back from the words of its hash

The words are fed one after another.  A trace and a detail stand behind their
lengths, the memory does not: its end cannot be seen, and the words of two
states can be the same when their memories differ in length.
-/

namespace T81VM.VM

open Tisc

/-- The members of type `std::size_t` hold values of that type. -/
structure TraceEntry.Sized (entry : TraceEntry) : Prop where
  pc : entry.pc < 2 ^ 64
  reg : ∀ reg ∈ entry.writeReg, reg < 2 ^ 64

structure TrapPayload.Sized (payload : TrapPayload) : Prop where
  pc : payload.pc < 2 ^ 64
  detail : payload.detail.length < 2 ^ 64

structure State.Sized (state : State) : Prop where
  pc : state.pc < 2 ^ 64
  gcCycles : state.gcCycles < 2 ^ 64
  memory : state.memory.length ≤ maxData
  trace : state.trace.length < 2 ^ 64
  entries : ∀ entry ∈ state.trace, entry.Sized
  payload : ∀ payload ∈ state.lastTrapPayload, payload.Sized

/-- The fields of a write are all present or all absent, and a trap is never
`None`. -/
structure TraceEntry.Regular (entry : TraceEntry) : Prop where
  value : entry.writeValue.isSome = entry.writeReg.isSome
  tag : entry.writeTag.isSome = entry.writeReg.isSome
  trap : entry.trap ≠ some .none

/-- The states agree on everything that is hashed. -/
structure SameHashed (left right : State) : Prop where
  pc : left.pc = right.pc
  halted : left.halted = right.halted
  gcCycles : left.gcCycles = right.gcCycles
  registers : left.registers = right.registers
  memory : left.memory = right.memory
  trace : left.trace = right.trace
  payload : left.lastTrapPayload = right.lastTrapPayload
  policy : left.policy = right.policy

/-- States with memories of these lengths are told apart by their words. -/
def Unambiguous (leftSize rightSize : Nat) : Prop :=
  ∀ left right : State, left.Sized → right.Sized →
    (∀ entry ∈ left.trace, entry.Regular) →
    (∀ entry ∈ right.trace, entry.Regular) →
    left.memory.length = leftSize → right.memory.length = rightSize →
    stateWords left = stateWords right → SameHashed left right

/-! ## The parts that are read back -/

/-- The word of an optional ordinal. -/
theorem succ_word_ne_zero {value : Nat} (small : value < 2 ^ 63) :
    UInt64.ofNat (value + 1) ≠ 0 := by
  intro zero
  have number := @ofNat_word_inj (value + 1) 0 (by omega) (by decide) zero
  omega

theorem ValueTag.ordinal_lt (tag : ValueTag) : tag.ordinal < 7 := by
  cases tag <;> decide

theorem Trap.ordinal_lt (trap : Trap) : trap.ordinal < 9 := by
  cases trap <;> decide

theorem MemorySegmentKind.ordinal_lt (kind : MemorySegmentKind) :
    kind.ordinal < 6 := by
  cases kind <;> decide

theorem opcode_word_inj {left right : Opcode}
    (same : UInt64.ofNat left.ordinal = UInt64.ofNat right.ordinal) :
    left = right := by
  have leftSmall := left.ordinal_lt
  have rightSmall := right.ordinal_lt
  exact Opcode.ordinal_inj (ofNat_word_inj (by omega) (by omega) same)

theorem trap_word_inj {left right : Trap}
    (same : UInt64.ofNat left.ordinal = UInt64.ofNat right.ordinal) :
    left = right := by
  have leftSmall := left.ordinal_lt
  have rightSmall := right.ordinal_lt
  exact Trap.ordinal_inj (ofNat_word_inj (by omega) (by omega) same)

theorem segment_word_inj {left right : MemorySegmentKind}
    (same : UInt64.ofNat left.ordinal = UInt64.ofNat right.ordinal) :
    left = right := by
  have leftSmall := left.ordinal_lt
  have rightSmall := right.ordinal_lt
  exact MemorySegmentKind.ordinal_inj
    (ofNat_word_inj (by omega) (by omega) same)

theorem tag_word_inj {left right : ValueTag}
    (same : UInt64.ofNat (left.ordinal + 1) =
      UInt64.ofNat (right.ordinal + 1)) : left = right := by
  have leftSmall := left.ordinal_lt
  have rightSmall := right.ordinal_lt
  have numbers := ofNat_word_inj (by omega) (by omega) same
  exact ValueTag.ordinal_inj (by omega)

/-- A register number, hashed one higher and modulo `2 ^ 64`. -/
theorem reg_word_inj {left right : Nat} (leftSmall : left < 2 ^ 64)
    (rightSmall : right < 2 ^ 64)
    (same : UInt64.ofNat (left + 1) = UInt64.ofNat (right + 1)) :
    left = right := by
  have numbers := congrArg UInt64.toNat same
  simp only [UInt64.toNat_ofNat'] at numbers
  omega

theorem int64_word_inj {left right : Int64}
    (same : left.toUInt64 = right.toUInt64) : left = right :=
  congrArg Int64.ofUInt64 same

/-- Present values without a zero word are told apart from absent ones. -/
theorem isSome_eq_of_words {α : Type} {word : α → UInt64}
    {left right : Option α} (leftNonzero : ∀ one ∈ left, word one ≠ 0)
    (rightNonzero : ∀ other ∈ right, word other ≠ 0)
    (same : left.elim 0 word = right.elim 0 word) :
    left.isSome = right.isSome := by
  cases left with
  | none =>
      cases right with
      | none => rfl
      | some other => exact absurd same.symm (rightNonzero other rfl)
  | some one =>
      cases right with
      | none => exact absurd same (leftNonzero one rfl)
      | some other => rfl

/-- An optional field is read back from its word when it is known whether it
is present. -/
theorem optional_word_inj {α : Type} {word : α → UInt64}
    {left right : Option α} (present : left.isSome = right.isSome)
    (injective : ∀ one ∈ left, ∀ other ∈ right,
      word one = word other → one = other)
    (same : left.elim 0 word = right.elim 0 word) : left = right := by
  cases left with
  | none =>
      cases right with
      | none => rfl
      | some other => cases present
  | some one =>
      cases right with
      | none => cases present
      | some other => rw [injective one rfl other rfl same]

theorem traceEntryWords_eq (entry : TraceEntry) :
    traceEntryWords entry =
      [UInt64.ofNat entry.pc, UInt64.ofNat entry.opcode.ordinal,
        entry.writeReg.elim 0 fun reg => UInt64.ofNat (reg + 1),
        entry.writeValue.elim 0 Int64.toUInt64,
        entry.writeTag.elim 0 fun tag => UInt64.ofNat (tag.ordinal + 1),
        entry.trap.elim 0 fun trap => UInt64.ofNat trap.ordinal] := by
  obtain ⟨pc, opcode, reg, value, tag, trap⟩ := entry
  cases reg <;> cases value <;> cases tag <;> cases trap <;> rfl

/-- The entries are read back from their words. -/
theorem traceEntryWords_inj {left right : TraceEntry}
    (leftSized : left.Sized) (rightSized : right.Sized)
    (leftRegular : left.Regular) (rightRegular : right.Regular)
    (same : traceEntryWords left = traceEntryWords right) : left = right := by
  have trapNonzero : ∀ entry : TraceEntry, entry.Regular →
      ∀ raised ∈ entry.trap, UInt64.ofNat raised.ordinal ≠ 0 := by
    intro entry regular raised member
    apply trapWord_ne_zero
    intro none
    rw [none] at member
    exact regular.trap member
  have tagNonzero : ∀ tag : ValueTag, UInt64.ofNat (tag.ordinal + 1) ≠ 0 := by
    intro tag
    have small := tag.ordinal_lt
    exact succ_word_ne_zero (by omega)
  simp only [traceEntryWords_eq, List.cons.injEq, and_true] at same
  obtain ⟨pc, opcode, reg, value, tag, trap⟩ := same
  have tagPresent : left.writeTag.isSome = right.writeTag.isSome :=
    isSome_eq_of_words (fun one _ => tagNonzero one)
      (fun other _ => tagNonzero other) tag
  have regPresent : left.writeReg.isSome = right.writeReg.isSome :=
    leftRegular.tag.symm.trans (tagPresent.trans rightRegular.tag)
  have valuePresent : left.writeValue.isSome = right.writeValue.isSome :=
    leftRegular.value.trans (regPresent.trans rightRegular.value.symm)
  have trapPresent : left.trap.isSome = right.trap.isSome :=
    isSome_eq_of_words (trapNonzero left leftRegular)
      (trapNonzero right rightRegular) trap
  have pcs := ofNat_word_inj leftSized.pc rightSized.pc pc
  have opcodes := opcode_word_inj opcode
  have regs := optional_word_inj regPresent
    (fun one written other rewritten =>
      reg_word_inj (leftSized.reg one written) (rightSized.reg other rewritten))
    reg
  have values := optional_word_inj valuePresent
    (fun _ _ _ _ => int64_word_inj) value
  have tags := optional_word_inj tagPresent (fun _ _ _ _ => tag_word_inj) tag
  have traps := optional_word_inj trapPresent
    (fun _ _ _ _ => trap_word_inj) trap
  cases left
  cases right
  cases pcs
  cases opcodes
  cases regs
  cases values
  cases tags
  cases traps
  rfl

theorem trace_word_inj {left right : List TraceEntry}
    (leftSized : ∀ entry ∈ left, entry.Sized)
    (rightSized : ∀ entry ∈ right, entry.Sized)
    (leftRegular : ∀ entry ∈ left, entry.Regular)
    (rightRegular : ∀ entry ∈ right, entry.Regular)
    (same : left.map traceEntryWords = right.map traceEntryWords) :
    left = right := by
  induction left generalizing right with
  | nil =>
      cases right with
      | nil => rfl
      | cons entry rest => cases same
  | cons entry rest induction =>
      cases right with
      | nil => cases same
      | cons other others =>
          rw [List.map_cons, List.map_cons] at same
          obtain ⟨words, later⟩ := List.cons_eq_cons.mp same
          obtain ⟨sized, restSized⟩ := List.forall_mem_cons.mp leftSized
          obtain ⟨otherSized, othersSized⟩ :=
            List.forall_mem_cons.mp rightSized
          obtain ⟨regular, restRegular⟩ := List.forall_mem_cons.mp leftRegular
          obtain ⟨otherRegular, othersRegular⟩ :=
            List.forall_mem_cons.mp rightRegular
          rw [traceEntryWords_inj sized otherSized regular otherRegular words,
            induction restSized othersSized restRegular othersRegular later]

/-- The payload is read back, and what follows it is left. -/
theorem trapPayloadWords_inj {left right : Option TrapPayload}
    {leftRest rightRest : List UInt64}
    (leftSized : ∀ payload ∈ left, payload.Sized)
    (rightSized : ∀ payload ∈ right, payload.Sized)
    (same : trapPayloadWords left ++ leftRest =
      trapPayloadWords right ++ rightRest) :
    left = right ∧ leftRest = rightRest := by
  cases left with
  | none =>
      cases right with
      | none => exact ⟨rfl, (List.cons_eq_cons.mp same).2⟩
      | some payload =>
          have flag := (List.cons_eq_cons.mp same).1
          cases flag
  | some leftPayload =>
      cases right with
      | none =>
          have flag := (List.cons_eq_cons.mp same).1
          cases flag
      | some rightPayload =>
          have leftSized := leftSized leftPayload rfl
          have rightSized := rightSized rightPayload rfl
          obtain ⟨leftTrap, leftPc, leftOpcode, leftA, leftB, leftC,
            leftSegment, leftDetail⟩ := leftPayload
          obtain ⟨rightTrap, rightPc, rightOpcode, rightA, rightB, rightC,
            rightSegment, rightDetail⟩ := rightPayload
          simp only [trapPayloadWords, List.cons_append, List.nil_append,
            List.cons.injEq, true_and] at same
          obtain ⟨trap, pc, opcode, a, b, c, segment, size, rest⟩ := same
          have lengths := ofNat_word_inj leftSized.detail rightSized.detail
            size
          obtain ⟨detail, remaining⟩ := List.append_inj rest
            (by rw [List.length_map, List.length_map]; exact lengths)
          have bytes : leftDetail = rightDetail :=
            List.map_injective_iff.mpr
              (fun _ _ words => UInt8.toUInt64_inj.mp words) detail
          cases trap_word_inj trap
          cases ofNat_word_inj leftSized.pc rightSized.pc pc
          cases opcode_word_inj opcode
          cases int64_word_inj a
          cases int64_word_inj b
          cases int64_word_inj c
          cases segment_word_inj segment
          cases bytes
          exact ⟨rfl, remaining⟩

theorem policyWords_inj {left right : Option Policy}
    (same : policyWords left = policyWords right) : left = right := by
  cases left with
  | none =>
      cases right with
      | none => rfl
      | some policy =>
          have flag := (List.cons_eq_cons.mp same).1
          cases flag
  | some leftPolicy =>
      cases right with
      | none =>
          have flag := (List.cons_eq_cons.mp same).1
          cases flag
      | some rightPolicy =>
          obtain ⟨leftTier⟩ := leftPolicy
          obtain ⟨rightTier⟩ := rightPolicy
          have tiers := (List.cons_eq_cons.mp (List.cons_eq_cons.mp same).2).1
          have extended : leftTier.toInt64 = rightTier.toInt64 :=
            int64_word_inj tiers
          have equal := congrArg Int64.toInt32 extended
          rw [Int32.toInt32_toInt64, Int32.toInt32_toInt64] at equal
          rw [equal]

/-- States with memories of the same length are read back. -/
theorem sameHashed_of_stateWords {left right : State}
    (leftSized : left.Sized) (rightSized : right.Sized)
    (leftRegular : ∀ entry ∈ left.trace, entry.Regular)
    (rightRegular : ∀ entry ∈ right.trace, entry.Regular)
    (sizes : left.memory.length = right.memory.length)
    (same : stateWords left = stateWords right) : SameHashed left right := by
  simp only [stateWords, List.append_assoc, List.cons_append,
    List.nil_append, List.cons.injEq] at same
  obtain ⟨pc, halted, gcCycles, same⟩ := same
  obtain ⟨registers, same⟩ := List.append_inj same
    (by rw [List.length_map, List.length_map, List.length_ofFn,
      List.length_ofFn])
  obtain ⟨memory, same⟩ := List.append_inj same
    (by rw [List.length_map, List.length_map, sizes])
  obtain ⟨word, same⟩ := List.cons_eq_cons.mp same
  have lengths := ofNat_word_inj leftSized.trace rightSized.trace word
  obtain ⟨entries, same⟩ := List.append_inj same
    (by rw [traceWords_length, traceWords_length, lengths])
  obtain ⟨payload, policy⟩ := trapPayloadWords_inj leftSized.payload
    rightSized.payload same
  exact {
    pc := ofNat_word_inj leftSized.pc rightSized.pc pc
    halted := halted_word_inj halted
    gcCycles := ofNat_word_inj leftSized.gcCycles rightSized.gcCycles gcCycles
    registers := List.ofFn_injective (map_toUInt64_inj registers)
    memory := map_toUInt64_inj memory
    trace := trace_word_inj leftSized.entries rightSized.entries leftRegular
      rightRegular (map_traceEntryWords lengths entries)
    payload
    policy := policyWords_inj policy }

/-! ## Memories of different lengths -/

/-- The words behind the memory. -/
def tailWords (trace : List TraceEntry) (payload : Option TrapPayload) :
    List UInt64 :=
  UInt64.ofNat trace.length
    :: (trace.flatMap traceEntryWords ++ (trapPayloadWords payload ++ [0]))

/-- What stands behind one memory reads like some more cells and what stands
behind another one. -/
structure Overlap (shift : Nat) where
  trace : List TraceEntry
  payload : Option TrapPayload
  cells : List Int64
  other : Option TrapPayload
  shifted : cells.length = shift
  short : trace.length < 2 ^ 64
  sized : ∀ entry ∈ trace, entry.Sized
  regular : ∀ entry ∈ trace, entry.Regular
  payloadSized : ∀ recorded ∈ payload, recorded.Sized
  otherSized : ∀ recorded ∈ other, recorded.Sized
  words : tailWords trace payload =
    cells.map Int64.toUInt64 ++ tailWords [] other

namespace Overlap

variable {shift : Nat} (overlap : Overlap shift) (size : Nat)

def left : State where
  memory := List.replicate size 0
  trace := overlap.trace
  lastTrapPayload := overlap.payload

def right : State where
  memory := List.replicate size 0 ++ overlap.cells
  lastTrapPayload := overlap.other

theorem stateWords_eq :
    stateWords (overlap.left size) = stateWords (overlap.right size) := by
  have tails := overlap.words
  simp only [tailWords] at tails
  simp only [stateWords, left, right, policyWords, List.map_append,
    List.append_assoc, List.cons_append, List.nil_append]
  rw [tails]
  rfl

theorem right_memory_length :
    (overlap.right size).memory.length = size + shift := by
  rw [right, List.length_append, List.length_replicate, overlap.shifted]

theorem left_sized (fits : size ≤ maxData) : (overlap.left size).Sized where
  pc := Nat.two_pow_pos 64
  gcCycles := Nat.two_pow_pos 64
  memory := by
    rw [left, List.length_replicate]
    exact fits
  trace := overlap.short
  entries := overlap.sized
  payload := overlap.payloadSized

theorem right_sized (fits : size + shift ≤ maxData) :
    (overlap.right size).Sized where
  pc := Nat.two_pow_pos 64
  gcCycles := Nat.two_pow_pos 64
  memory := by
    rw [overlap.right_memory_length]
    exact fits
  trace := Nat.two_pow_pos 64
  entries _ member := (List.not_mem_nil member).elim
  payload := overlap.otherSized

include overlap in
/-- Memories as far apart as the overlap are confused. -/
theorem not_unambiguous (positive : 0 < shift)
    (fits : size + shift ≤ maxData) :
    ¬ Unambiguous size (size + shift) := by
  intro unambiguous
  have same := unambiguous (overlap.left size) (overlap.right size)
    (overlap.left_sized size (by omega)) (overlap.right_sized size fits)
    overlap.regular (fun _ member => (List.not_mem_nil member).elim)
    List.length_replicate (overlap.right_memory_length size)
    (overlap.stateWords_eq size)
  have lengths := congrArg List.length same.memory
  rw [overlap.right_memory_length, left, List.length_replicate] at lengths
  omega

end Overlap

/-- A payload whose words are zero. -/
def zeroPayload : TrapPayload where
  trap := .none
  pc := 0
  opcode := .nop
  a := 0
  b := 0
  c := 0
  segment := .unknown
  detail := []

/-- A detail of zeros. -/
def zeroDetail (size : Nat) : Text :=
  List.replicate size 0

/-- An overlap behind empty traces. -/
def Overlap.ofPayloads {shift : Nat} (payload other : Option TrapPayload)
    (cells : List Int64) (shifted : cells.length = shift)
    (payloadSized : ∀ recorded ∈ payload, recorded.Sized)
    (otherSized : ∀ recorded ∈ other, recorded.Sized)
    (words : tailWords [] payload =
      cells.map Int64.toUInt64 ++ tailWords [] other) :
    Overlap shift where
  trace := []
  payload
  cells
  other
  shifted
  short := Nat.two_pow_pos 64
  sized _ member := (List.not_mem_nil member).elim
  regular _ member := (List.not_mem_nil member).elim
  payloadSized
  otherSized
  words

theorem sized_none : ∀ recorded ∈ (none : Option TrapPayload),
    recorded.Sized := by
  intro recorded member
  cases member

/-- A payload with a short detail. -/
theorem sized_some {payload : TrapPayload} (pc : payload.pc ≤ 7)
    (detail : payload.detail.length ≤ 7) :
    ∀ recorded ∈ some payload, recorded.Sized := by
  intro recorded member
  cases member
  exact ⟨by omega, by omega⟩

/-- A trace entry whose words are zero, but for the opcode. -/
def zeroEntry (opcode : Opcode) : TraceEntry where
  pc := 0
  opcode
  writeReg := none
  writeValue := none
  writeTag := none
  trap := none

theorem zeroEntry_sized (opcode : Opcode) : (zeroEntry opcode).Sized := by
  refine ⟨Nat.two_pow_pos 64, fun reg member => ?_⟩
  cases member

theorem zeroEntry_regular (opcode : Opcode) : (zeroEntry opcode).Regular := by
  refine ⟨rfl, rfl, fun same => ?_⟩
  cases same

/-- An overlap behind a trace of one entry. -/
def Overlap.ofEntry {shift : Nat} (opcode : Opcode)
    (payload other : Option TrapPayload) (cells : List Int64)
    (shifted : cells.length = shift)
    (payloadSized : ∀ recorded ∈ payload, recorded.Sized)
    (otherSized : ∀ recorded ∈ other, recorded.Sized)
    (words : tailWords [zeroEntry opcode] payload =
      cells.map Int64.toUInt64 ++ tailWords [] other) :
    Overlap shift where
  trace := [zeroEntry opcode]
  payload
  cells
  other
  shifted
  short := Nat.one_lt_two_pow (by decide)
  sized entry member := by
    cases List.mem_singleton.mp member
    exact zeroEntry_sized opcode
  regular entry member := by
    cases List.mem_singleton.mp member
    exact zeroEntry_regular opcode
  payloadSized
  otherSized
  words

/-- A long detail reads like the end of a memory, an empty trace and no
payload. -/
def Overlap.ofDetail (size : Nat) (small : size + 2 < 2 ^ 64) :
    Overlap (size + 10) :=
  .ofPayloads (some { zeroPayload with detail := zeroDetail (size + 2) }) none
    ([0, 1, 0, 0, 0, 0, 0, 0, 0, Int64.ofNat (size + 2)]
      ++ List.replicate size 0)
    (by
      rw [List.length_append, List.length_replicate]
      exact Nat.add_comm 10 size)
    (by
      intro recorded member
      cases member
      refine ⟨Nat.two_pow_pos 64, ?_⟩
      rw [zeroDetail, List.length_replicate]
      exact small)
    sized_none
    (by
      have zeros : List.replicate (size + 2) (0 : UInt64) ++ [0] =
          List.replicate size 0 ++ [0, 0, 0] := by
        rw [List.replicate_add, List.append_assoc]
        rfl
      simp only [tailWords, trapPayloadWords, zeroDetail, List.map_replicate,
        List.length_replicate, List.map_append]
      exact congrArg (fun rest : List UInt64 =>
        0 :: 1 :: 0 :: 0 :: 0 :: 0 :: 0 :: 0 :: 0 :: UInt64.ofNat (size + 2)
          :: rest) zeros)

/-- A trace of one entry reads like the end of a memory and an empty trace. -/
def overlapEntry : Overlap 6 :=
  .ofEntry .nop none none [1, 0, 0, 0, 0, 0] rfl sized_none sized_none
    (by decide)

/-- Any two memories of different lengths overlap in some states. -/
theorem exists_overlap {shift : Nat} (positive : 0 < shift)
    (small : shift < 2 ^ 64) : Nonempty (Overlap shift) := by
  by_cases long : 10 ≤ shift
  · obtain ⟨size, rfl⟩ := Nat.exists_eq_add_of_le' long
    exact ⟨.ofDetail size (by omega)⟩
  · -- The fields of one payload stand for the length of the other trace, the
    -- flag of the other payload and its fields.
    interval_cases shift
    · exact ⟨.ofEntry .halt (some { zeroPayload with opcode := .add })
        (some { zeroPayload with b := 1, detail := zeroDetail 5 }) [1] rfl
        (sized_some (by decide) (by decide))
        (sized_some (by decide) (by decide)) (by decide)⟩
    · exact ⟨.ofPayloads
        (some { zeroPayload with pc := 1, detail := zeroDetail 2 })
        (some { zeroPayload with c := 2 }) [0, 1] rfl
        (sized_some (by decide) (by decide))
        (sized_some (by decide) (by decide)) (by decide)⟩
    · exact ⟨.ofPayloads
        (some { zeroPayload with opcode := .halt, detail := zeroDetail 3 })
        (some { zeroPayload with b := 3 }) [0, 1, 0] rfl
        (sized_some (by decide) (by decide))
        (sized_some (by decide) (by decide)) (by decide)⟩
    · exact ⟨.ofPayloads
        (some { zeroPayload with a := 1, detail := zeroDetail 4 })
        (some { zeroPayload with a := 4 }) [0, 1, 0, 0] rfl
        (sized_some (by decide) (by decide))
        (sized_some (by decide) (by decide)) (by decide)⟩
    · exact ⟨.ofPayloads
        (some { zeroPayload with b := 1, detail := zeroDetail 5 })
        (some { zeroPayload with opcode := .add }) [0, 1, 0, 0, 0] rfl
        (sized_some (by decide) (by decide))
        (sized_some (by decide) (by decide)) (by decide)⟩
    · exact ⟨overlapEntry⟩
    · exact ⟨.ofPayloads
        (some { zeroPayload with segment := .code, detail := zeroDetail 7 })
        (some { zeroPayload with trap := .shapeFault }) [0, 1, 0, 0, 0, 0, 0]
        rfl (sized_some (by decide) (by decide))
        (sized_some (by decide) (by decide)) (by decide)⟩
    · exact ⟨.ofPayloads (some zeroPayload) none [0, 1, 0, 0, 0, 0, 0, 0] rfl
        (sized_some (by decide) (by decide)) sized_none (by decide)⟩
    · exact ⟨.ofEntry .nop
        (some { zeroPayload with opcode := .halt, detail := zeroDetail 3 })
        (some { zeroPayload with b := 3 }) [1, 0, 0, 0, 0, 0, 0, 1, 0] rfl
        (sized_some (by decide) (by decide))
        (sized_some (by decide) (by decide)) (by decide)⟩

theorem Unambiguous.symm {leftSize rightSize : Nat}
    (unambiguous : Unambiguous leftSize rightSize) :
    Unambiguous rightSize leftSize := by
  intro left right leftSized rightSized leftRegular rightRegular leftLength
    rightLength same
  have agree := unambiguous right left rightSized leftSized rightRegular
    leftRegular rightLength leftLength same.symm
  exact {
    pc := agree.pc.symm
    halted := agree.halted.symm
    gcCycles := agree.gcCycles.symm
    registers := agree.registers.symm
    memory := agree.memory.symm
    trace := agree.trace.symm
    payload := agree.payload.symm
    policy := agree.policy.symm }

theorem not_unambiguous_of_lt {leftSize rightSize : Nat}
    (less : leftSize < rightSize) (fits : rightSize ≤ maxData) :
    ¬ Unambiguous leftSize rightSize := by
  obtain ⟨shift, rfl⟩ := Nat.exists_eq_add_of_lt less
  have bound : maxData < 2 ^ 64 := by decide
  have ⟨overlap⟩ := exists_overlap (Nat.succ_pos shift) (by omega)
  rw [Nat.add_assoc] at fits ⊢
  exact overlap.not_unambiguous leftSize (Nat.succ_pos shift) fits

/-- The words of two states tell them apart exactly if their memories have
the same length. -/
theorem unambiguous_iff {leftSize rightSize : Nat}
    (leftFits : leftSize ≤ maxData) (rightFits : rightSize ≤ maxData) :
    Unambiguous leftSize rightSize ↔ leftSize = rightSize := by
  constructor
  · intro unambiguous
    rcases Nat.lt_trichotomy leftSize rightSize with less | same | greater
    · exact absurd unambiguous (not_unambiguous_of_lt less rightFits)
    · exact same
    · exact absurd unambiguous.symm (not_unambiguous_of_lt greater leftFits)
  · intro equal left right leftSized rightSized leftRegular rightRegular
      leftLength rightLength same
    have sizes : left.memory.length = right.memory.length := by
      rw [leftLength, rightLength, equal]
    exact sameHashed_of_stateWords leftSized rightSized leftRegular
      rightRegular sizes same

/-- Memories of six cells are told apart from each other, but not from empty
ones. -/
theorem unambiguous_iff_six : Unambiguous 6 6 ∧ ¬ Unambiguous 0 6 := by
  have bound : 6 ≤ maxData := by decide
  constructor
  · exact (unambiguous_iff bound bound).mpr rfl
  · intro unambiguous
    have equal := (unambiguous_iff (Nat.zero_le maxData) bound).mp unambiguous
    cases equal

/-- Six cells of memory have the words of a trace of one entry. -/
theorem not_forall_sameHashed :
    ¬ ∀ left right : State, left.Sized → right.Sized →
      (∀ entry ∈ left.trace, entry.Regular) →
      (∀ entry ∈ right.trace, entry.Regular) →
      stateWords left = stateWords right → SameHashed left right := by
  intro decodable
  have same := decodable { trace := [zeroEntry .nop] }
    { memory := [1, 0, 0, 0, 0, 0] }
    (overlapEntry.left_sized 0 (Nat.zero_le maxData))
    (overlapEntry.right_sized 0 (by decide)) overlapEntry.regular
    (fun _ member => (List.not_mem_nil member).elim)
    (overlapEntry.stateWords_eq 0)
  cases same.memory

end T81VM.VM
