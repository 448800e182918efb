import T81VM.VM.Retrace
import T81VM.VM.Summary

/-!
# What the words of the hash determine

For states of one accepted program the words that the hash is fed with can
be read back: they determine the visible registers and memory, and through
the marks of the trace the hidden pointers and frames.
-/

namespace T81VM.VM

open Tisc

/-! ## Reading words back -/

theorem ofNat_word_inj {left right : Nat} (leftSmall : left < 2 ^ 64)
    (rightSmall : right < 2 ^ 64)
    (same : UInt64.ofNat left = UInt64.ofNat right) : left = right := by
  have numbers := congrArg UInt64.toNat same
  rwa [UInt64.toNat_ofNat_of_lt' leftSmall,
    UInt64.toNat_ofNat_of_lt' rightSmall] at numbers

theorem halted_word_inj {left right : Bool}
    (same : (if left = true then (1 : UInt64) else 0) =
      if right = true then 1 else 0) : left = right := by
  cases left <;> cases right <;> first | rfl | exact absurd same (by decide)

theorem map_toUInt64_inj {left right : List Int64}
    (same : left.map Int64.toUInt64 = right.map Int64.toUInt64) :
    left = right := by
  apply List.map_injective_iff.mpr ?_ same
  intro one other words
  exact congrArg Int64.ofUInt64 words

/-- The mark of an entry, read off its words. -/
def markOfWords : List UInt64 → Nat × Bool
  | [pc, _, _, _, _, trap] => (pc.toNat, trap != 0)
  | _ => (0, false)

theorem trapWord_ne_zero {trap : Trap} (real : trap ≠ .none) :
    UInt64.ofNat trap.ordinal ≠ 0 := by
  cases trap with
  | none => exact absurd rfl real
  | _ => decide

theorem mark_eq_markOfWords {entry : TraceEntry} (small : entry.pc < 2 ^ 64)
    (real : entry.trap ≠ some .none) :
    entry.mark = markOfWords (traceEntryWords entry) := by
  rw [TraceEntry.mark, traceEntryWords, markOfWords,
    UInt64.toNat_ofNat_of_lt' small]
  cases raised : entry.trap with
  | none => rfl
  | some trap =>
      rw [raised] at real
      have word := trapWord_ne_zero fun none => real (congrArg some none)
      simp [word]

theorem traceWords_length (trace : List TraceEntry) :
    (trace.flatMap traceEntryWords).length = 6 * trace.length := by
  induction trace with
  | nil => rfl
  | cons entry trace induction =>
      rw [List.flatMap_cons, List.length_append, induction, List.length_cons]
      have six : (traceEntryWords entry).length = 6 := rfl
      omega

theorem trapPayloadWords_length {payload : Option TrapPayload}
    (short : ∀ recorded, payload = some recorded →
      recorded.detail.length ≤ 25) :
    (trapPayloadWords payload).length ≤ 34 := by
  cases payload with
  | none => decide
  | some recorded =>
      have bounded := short recorded rfl
      simp only [trapPayloadWords, List.length_append, List.length_map,
        List.length_cons, List.length_nil]
      omega

/-- Entries of six words each are found again in their concatenation. -/
theorem map_traceEntryWords {left right : List TraceEntry}
    (lengths : left.length = right.length)
    (same : left.flatMap traceEntryWords = right.flatMap traceEntryWords) :
    left.map traceEntryWords = right.map traceEntryWords := by
  apply List.eq_iff_flatten_eq.mpr
  refine ⟨same, ?_⟩
  have six : ∀ trace : List TraceEntry,
      (trace.map traceEntryWords).map List.length =
        List.replicate trace.length 6 := by
    intro trace
    rw [List.map_map]
    exact List.map_eq_replicate_iff.mpr fun entry _ => rfl
  rw [six, six, lengths]

namespace Interpreter

variable {program : Program} {left right : Interpreter}

/-! ## States of one program -/

/-- What the words tell apart. -/
structure SameWords (left right : Interpreter) : Prop where
  pc : left.state.pc = right.state.pc
  halted : left.state.halted = right.state.halted
  registers : left.state.registers = right.state.registers
  memory : left.state.memory = right.state.memory
  marks : left.state.trace.map TraceEntry.mark =
    right.state.trace.map TraceEntry.mark

theorem small_of_le {pc : Nat} (bounded : pc ≤ program.insns.length) :
    pc < 2 ^ 64 := by
  have small := program.length_lt
  omega

/-- The marks of a trace, read off its words. -/
theorem Retraced.marks_eq (retraced : Retraced program left) :
    left.state.trace.map TraceEntry.mark =
      (left.state.trace.map traceEntryWords).map markOfWords := by
  rw [List.map_map]
  apply List.map_congr_left
  intro entry member
  obtain ⟨bounded, real⟩ := retraced.marks entry member
  exact mark_eq_markOfWords (small_of_le bounded) real

/-- The length of the trace is hashed as one word, but the number of words
that follow leaves no doubt about it. -/
theorem trace_length_eq (leftRetraced : Retraced program left)
    (rightRetraced : Retraced program right)
    (word : UInt64.ofNat left.state.trace.length =
      UInt64.ofNat right.state.trace.length)
    (total : (left.state.trace.flatMap traceEntryWords ++
        (trapPayloadWords left.state.lastTrapPayload ++
          policyWords left.state.policy)).length =
      (right.state.trace.flatMap traceEntryWords ++
        (trapPayloadWords right.state.lastTrapPayload ++
          policyWords right.state.policy)).length) :
    left.state.trace.length = right.state.trace.length := by
  have leftShort := trapPayloadWords_length leftRetraced.detail
  have rightShort := trapPayloadWords_length rightRetraced.detail
  have policies : left.state.policy = right.state.policy :=
    Except.ok.inj (leftRetraced.policy_eq.symm.trans rightRetraced.policy_eq)
  have numbers := congrArg UInt64.toNat word
  simp only [UInt64.toNat_ofNat'] at numbers
  simp only [List.length_append, traceWords_length, policies] at total
  omega

/-- Equal words are words of equal parts. -/
theorem sameWords_of_stateWords (leftRetraced : Retraced program left)
    (rightRetraced : Retraced program right)
    (same : stateWords left.state = stateWords right.state) :
    SameWords left right := by
  have sizes : left.state.memory.length = right.state.memory.length :=
    leftRetraced.memory_length.trans rightRetraced.memory_length.symm
  simp only [stateWords, List.append_assoc, List.cons_append,
    List.nil_append, List.cons.injEq] at same
  obtain ⟨pc, halted, _, same⟩ := same
  obtain ⟨registers, same⟩ := List.append_inj same
    (by rw [List.length_map, List.length_map, List.length_ofFn,
      List.length_ofFn])
  obtain ⟨memory, same⟩ := List.append_inj same
    (by rw [List.length_map, List.length_map, sizes])
  obtain ⟨word, same⟩ := List.cons_eq_cons.mp same
  have lengths := trace_length_eq leftRetraced rightRetraced word
    (congrArg List.length same)
  obtain ⟨entries, _⟩ := List.append_inj same
    (by rw [traceWords_length, traceWords_length, lengths])
  refine ⟨?_, ?_, ?_, map_toUInt64_inj memory, ?_⟩
  · exact ofNat_word_inj (small_of_le leftRetraced.pc_le)
      (small_of_le rightRetraced.pc_le) pc
  · exact halted_word_inj halted
  · exact List.ofFn_injective (map_toUInt64_inj registers)
  · rw [leftRetraced.marks_eq, rightRetraced.marks_eq,
      map_traceEntryWords lengths entries]

/-- Equal words are words of equal pointers, frames and call stacks. -/
theorem SameWords.hidden_eq (same : SameWords left right)
    (leftRetraced : Retraced program left)
    (rightRetraced : Retraced program right) : left.hidden = right.hidden := by
  rw [leftRetraced.hidden_eq, rightRetraced.hidden_eq, same.marks]

end Interpreter

end T81VM.VM
