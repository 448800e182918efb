import T81VM.Library.Hexadecimal
import T81VM.VM.TrapPayloadLine

/-!
# The snapshot

`snapshotSummary` prints the program counter, the registers, the last trap
and the state hash, one line each.  The text shows what it prints: two states
have the same snapshot just when they agree on all of it.
-/

namespace T81VM.VM

open Tisc PrefixCode

/-! ## Printing -/

def snapshotLine (state : State) : Text :=
  text "SNAPSHOT pc=" ++ Decimal.natural state.pc
    ++ text " halted=" ++ Decimal.natural (if state.halted then 1 else 0)
    ++ text " gc_cycles=" ++ Decimal.natural state.gcCycles
    ++ (match state.policy with
        | some policy =>
            text " policy_tier=" ++ Decimal.integer policy.tier.toInt
        | none => [])

def registersLine (registers : RegisterFile Int64) : Text :=
  text "REGISTERS"
    ++ (List.finRange 243).flatMap fun i : Fin 243 =>
        text " r" ++ Decimal.natural i ++ text "="
          ++ Decimal.integer (registers i).toInt

def stateHashLine (state : State) : Text :=
  text "STATE_HASH 0x" ++ Hexadecimal.padded 16 (stateHash state).toNat

def snapshotSummary (state : State) : Text :=
  let trapPayload := trapPayloadSummaryLine state
  snapshotLine state ++ text "\n"
    ++ registersLine state.registers ++ text "\n"
    ++ (if trapPayload.isEmpty then [] else trapPayload ++ text "\n")
    ++ stateHashLine state ++ text "\n"

/-- The line of the last trap, if there was one. -/
def trapPayloadLines (state : State) : List Text :=
  state.lastTrapPayload.toList.map payloadLine

def snapshotLines (state : State) : List Text :=
  snapshotLine state :: registersLine state.registers
    :: (trapPayloadLines state ++ [stateHashLine state])

/-- The states agree on what a snapshot shows. -/
structure SameSummary (first second : State) : Prop where
  pc : first.pc = second.pc
  halted : first.halted = second.halted
  gcCycles : first.gcCycles = second.gcCycles
  policy : first.policy = second.policy
  registers : first.registers = second.registers
  trapPayload : first.lastTrapPayload = second.lastTrapPayload
  hash : stateHash first = stateHash second

/-! ## Lines -/

theorem payloadLine_ne_nil (payload : TrapPayload) :
    payloadLine payload ≠ [] := by
  intro empty
  unfold payloadLine at empty
  simp only [List.append_assoc] at empty
  exact absurd (List.append_eq_nil_iff.mp empty).1 (by decide)

/-- The payload line is printed where there is one. -/
theorem trapPayloadLines_flatMap (state : State) :
    (trapPayloadLines state).flatMap (· ++ text "\n") =
      if (trapPayloadSummaryLine state).isEmpty then []
      else trapPayloadSummaryLine state ++ text "\n" := by
  unfold trapPayloadLines trapPayloadSummaryLine
  cases state.lastTrapPayload with
  | none => rfl
  | some payload =>
      have visible : (payloadLine payload).isEmpty = false := by
        simp [payloadLine_ne_nil payload]
      simp [visible]

theorem snapshotSummary_eq (state : State) :
    snapshotSummary state =
      (snapshotLines state).flatMap (· ++ text "\n") := by
  unfold snapshotSummary snapshotLines
  simp only [List.flatMap_cons, List.flatMap_append, List.flatMap_nil,
    trapPayloadLines_flatMap, List.append_assoc, List.append_nil]

theorem not_mem_padded {width number : Nat} {byte : UInt8}
    (other : Hexadecimal.isDigit byte = false) :
    byte ∉ Hexadecimal.padded width number := by
  intro member
  rw [Hexadecimal.padded_isDigit width number byte member] at other
  cases other

theorem newline_not_mem_snapshotLine (state : State) :
    10 ∉ snapshotLine state := by
  have number : ∀ value, 10 ∉ Decimal.natural value :=
    fun _ => not_mem_natural rfl
  have tier : ∀ value, 10 ∉ Decimal.integer value :=
    fun _ => not_mem_integer rfl (by decide)
  have label : 10 ∉ text " policy_tier=" := by decide
  unfold snapshotLine
  simp only [List.append_assoc, List.mem_append, not_or]
  refine ⟨by decide, number _, by decide, number _, by decide, number _, ?_⟩
  cases state.policy with
  | none => exact List.not_mem_nil
  | some policy => simp [label, tier]

theorem newline_not_mem_registersLine (registers : RegisterFile Int64) :
    10 ∉ registersLine registers := by
  intro member
  rcases List.mem_append.mp member with head | cells
  · exact absurd head (by decide)
  · obtain ⟨i, _, cell⟩ := List.mem_flatMap.mp cells
    have number : 10 ∉ Decimal.natural i := not_mem_natural rfl
    have word : 10 ∉ Decimal.integer (registers i).toInt :=
      not_mem_integer rfl (by decide)
    have labels : 10 ∉ text " r" ∧ 10 ∉ text "=" := by decide
    simp [number, word, labels] at cell

theorem newline_not_mem_stateHashLine (state : State) :
    10 ∉ stateHashLine state := by
  have digits : 10 ∉ Hexadecimal.padded 16 (stateHash state).toNat :=
    not_mem_padded rfl
  unfold stateHashLine
  rw [List.mem_append, not_or]
  exact ⟨by decide, digits⟩

theorem newline_not_mem_snapshotLines (state : State) :
    ∀ line ∈ snapshotLines state, 10 ∉ line := by
  unfold snapshotLines trapPayloadLines
  simp only [List.forall_mem_cons, List.forall_mem_append,
    List.forall_mem_map]
  exact ⟨newline_not_mem_snapshotLine state,
    newline_not_mem_registersLine state.registers,
    fun payload _ => newline_not_mem_payloadLine payload,
    newline_not_mem_stateHashLine state, fun _ member =>
      absurd member List.not_mem_nil⟩

/-! ## Reading a snapshot back -/

theorem snapshotLine_inj {first second : State}
    (same : snapshotLine first = snapshotLine second) :
    first.pc = second.pc ∧ first.halted = second.halted ∧
      first.gcCycles = second.gcCycles ∧ first.policy = second.policy := by
  have clean : ∀ value, 32 ∉ Decimal.natural value :=
    fun _ => not_mem_natural rfl
  -- A space behind the line ends its last field.
  have closed := congrArg (· ++ text " ") same
  unfold snapshotLine at closed
  simp only [List.append_assoc] at closed
  obtain ⟨pc, afterPc⟩ := field_inj rfl (clean _) (clean _)
    (List.append_cancel_left closed)
  obtain ⟨halted, afterHalted⟩ := field_inj rfl (clean _) (clean _) afterPc
  have samePc := Decimal.natural_injective pc
  have sameHalted : first.halted = second.halted := by
    have bits := Decimal.natural_injective halted
    cases left : first.halted <;> cases right : second.halted <;>
      simp [left, right] at bits ⊢
  refine ⟨samePc, sameHalted, ?_⟩
  cases left : first.policy with
  | none =>
      cases right : second.policy with
      | none =>
          rw [left, right] at afterHalted
          obtain ⟨gc, _⟩ := separated_inj (clean _) (clean _) afterHalted
          exact ⟨Decimal.natural_injective gc, rfl⟩
      | some policy =>
          rw [left, right] at afterHalted
          simp only [List.append_assoc] at afterHalted
          obtain ⟨_, rest⟩ := separated_inj (clean _) (clean _) afterHalted
          cases rest
  | some policy =>
      cases right : second.policy with
      | none =>
          rw [left, right] at afterHalted
          simp only [List.append_assoc] at afterHalted
          obtain ⟨_, rest⟩ := separated_inj (clean _) (clean _) afterHalted
          cases rest
      | some other =>
          rw [left, right] at afterHalted
          simp only [List.append_assoc] at afterHalted
          obtain ⟨gc, rest⟩ := field_inj rfl (clean _) (clean _) afterHalted
          have tiers := Decimal.integer_injective
            (List.append_cancel_right rest)
          have sameTier : policy = other := by
            cases policy
            cases other
            simpa using Int32.toInt_inj.mp tiers
          exact ⟨Decimal.natural_injective gc, congrArg some sameTier⟩

theorem registersLine_injective : Function.Injective registersLine := by
  intro first second same
  have cells := List.append_cancel_left same
  have fields := @labelled_inj _ _ (32 : UInt8)
    (fun i : Fin 243 => text " r" ++ Decimal.natural i ++ text "=")
    (fun i : Fin 243 => Decimal.integer (first i).toInt)
    (fun i : Fin 243 => Decimal.integer (second i).toInt) (List.finRange 243)
    (fun _ => rfl) (fun _ => not_mem_integer rfl (by decide))
    (fun _ => not_mem_integer rfl (by decide)) cells
  funext i
  exact Int64.toInt_inj.mp (Decimal.integer_injective
    (fields i (List.mem_finRange i)))

theorem stateHashLine_inj {first second : State}
    (same : stateHashLine first = stateHashLine second) :
    stateHash first = stateHash second := by
  have digits := List.append_cancel_left same
  exact UInt64.toNat_inj.mp (Hexadecimal.padded_injective 16 digits)

theorem trapPayloadLines_inj {first second : State}
    (same : trapPayloadLines first = trapPayloadLines second) :
    first.lastTrapPayload = second.lastTrapPayload := by
  have payloads : first.lastTrapPayload.toList =
      second.lastTrapPayload.toList :=
    List.map_injective_iff.mpr payloadLine_injective same
  have heads := congrArg List.head? payloads
  rwa [Option.head?_toList, Option.head?_toList] at heads

theorem snapshotSummary_sameSummary {first second : State}
    (same : snapshotSummary first = snapshotSummary second) :
    SameSummary first second := by
  rw [snapshotSummary_eq, snapshotSummary_eq] at same
  have lines : snapshotLines first = snapshotLines second :=
    terminated_inj (newline_not_mem_snapshotLines first)
      (newline_not_mem_snapshotLines second) same
  simp only [snapshotLines, List.cons.injEq] at lines
  obtain ⟨head, registers, rest⟩ := lines
  obtain ⟨payload, hash⟩ := List.append_inj' rest (by simp)
  obtain ⟨pc, halted, gcCycles, policy⟩ := snapshotLine_inj head
  have sameRegisters := registersLine_injective registers
  rw [List.cons.injEq] at hash
  have sameHash := stateHashLine_inj hash.1
  exact ⟨pc, halted, gcCycles, policy, sameRegisters,
    trapPayloadLines_inj payload, sameHash⟩

theorem snapshotLines_congr {first second : State}
    (same : SameSummary first second) :
    snapshotLines first = snapshotLines second := by
  simp only [snapshotLines, snapshotLine, trapPayloadLines, stateHashLine,
    same.pc, same.halted, same.gcCycles, same.policy, same.registers,
    same.trapPayload, same.hash]

/-- Two states have the same snapshot just when they agree on everything it
shows. -/
theorem snapshotSummary_eq_iff {first second : State} :
    snapshotSummary first = snapshotSummary second ↔
      SameSummary first second := by
  constructor
  · exact snapshotSummary_sameSummary
  · intro same
    rw [snapshotSummary_eq, snapshotSummary_eq, snapshotLines_congr same]

end T81VM.VM
