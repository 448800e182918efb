import T81VM.Library.Decimal
import T81VM.Library.Regex
import T81VM.VM.Validator

/-!
# Loading a program image

The initial state of a program: its memory layout, its policy tier and the
verdict of the validator.
-/

namespace T81VM.VM

open Tisc GreedyRegex

structure LoadedProgram where
  program : Program
  initialState : State
  preloadTrap : Option Trap

/-- The expression `\(tier\s+([0-9]+)\)`. -/
def tierRe : List (Piece UInt8) :=
  [.one (isByte '('), .one (isByte 't'), .one (isByte 'i'),
    .one (isByte 'e'), .one (isByte 'r'), .plus isSpace,
    .capture [.plus Decimal.isDigit], .one (isByte ')')]

/-- `std::stoi` of a digit string. -/
def stoi (digits : Text) : Except StdException Int32 :=
  if Decimal.value digits < 2 ^ 31 then
    .ok (Int32.ofNat (Decimal.value digits))
  else
    .error .outOfRange

/-- The policy of a policy text, absent when no tier is found. -/
def parsePolicy (policyText : Text) : Except StdException (Option Policy) :=
  match search tierRe policyText with
  | some found =>
      match found.captures with
      | [] => .ok none
      | digits :: _ => do
          let tier ← stoi digits
          return some { tier }
  | none => .ok none

def defaultStackSize : Nat := 256
def defaultHeapSize : Nat := 768
def defaultTensorSize : Nat := 256
def defaultMetaSize : Nat := 256

/-- Five consecutive segments above each other. -/
def initialLayout (size : Nat) : MemoryLayout :=
  let code : MemorySegment := { start := 0, limit := size }
  let stack : MemorySegment :=
    { start := code.limit, limit := code.limit + defaultStackSize }
  let heap : MemorySegment :=
    { start := stack.limit, limit := stack.limit + defaultHeapSize }
  let tensor : MemorySegment :=
    { start := heap.limit, limit := heap.limit + defaultTensorSize }
  let metaSegment : MemorySegment :=
    { start := tensor.limit, limit := tensor.limit + defaultMetaSize }
  { code, stack, heap, tensor, metaSegment }

/-- The state before the first step, for a given policy. -/
def initialState (program : Program) (policy : Option Policy) : State :=
  let layout := initialLayout program.insns.length
  { layout
    memory := List.replicate layout.totalSize 0
    sp := layout.stack.limit
    heapPtr := layout.heap.start
    policy }

def loadProgramImage (program : Program) :
    Except StdException LoadedProgram := do
  let policy ← parsePolicy program.axionPolicyText
  return {
    program
    initialState := initialState program policy
    preloadTrap := validateProgram program }

@[simp] theorem initialLayout_code (size : Nat) :
    (initialLayout size).code = { start := 0, limit := size } := rfl

@[simp] theorem initialLayout_stack (size : Nat) :
    (initialLayout size).stack = { start := size, limit := size + 256 } := rfl

@[simp] theorem initialLayout_heap (size : Nat) :
    (initialLayout size).heap =
      { start := size + 256, limit := size + 256 + 768 } := rfl

@[simp] theorem initialLayout_totalSize (size : Nat) :
    (initialLayout size).totalSize = size + 256 + 768 + 256 + 256 := rfl

/-- A program loads when the tier of its policy text is in range. -/
theorem loadProgramImage_eq_ok {program : Program} {loaded : LoadedProgram} :
    loadProgramImage program = .ok loaded ↔
      ∃ policy, parsePolicy program.axionPolicyText = .ok policy ∧
        loaded = {
          program
          initialState := initialState program policy
          preloadTrap := validateProgram program } := by
  rw [loadProgramImage, bind_eq_ok]
  constructor
  · rintro ⟨policy, parsed, same⟩
    exact ⟨policy, parsed, (Except.ok.inj same).symm⟩
  · rintro ⟨policy, parsed, rfl⟩
    exact ⟨policy, parsed, rfl⟩

/-- A program without a policy text loads without a policy. -/
theorem parsePolicy_nil : parsePolicy [] = .ok none := rfl

end T81VM.VM
