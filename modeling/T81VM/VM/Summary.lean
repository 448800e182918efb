import T81VM.VM.State

/-!
# The state hash

`stateHash` folds `mixU64` over the words of a state.
-/

namespace T81VM.VM

open Tisc

def fnvOffsetBasis : UInt64 := 1469598103934665603
def fnvPrime : UInt64 := 1099511628211

/-- Byte `index` of a word, counted from the least significant one. -/
def byteAt (word : UInt64) (index : Nat) : UInt64 :=
  (word >>> UInt64.ofNat (index * 8)) &&& 0xff

/-- Mix the eight bytes of a word into the hash. -/
def mixU64 (hash word : UInt64) : UInt64 :=
  (List.range 8).foldl
    (fun hash index => (hash ^^^ byteAt word index) * fnvPrime) hash

def Trap.ordinal (trap : Trap) : Nat := trap.ctorIdx

def ValueTag.ordinal (tag : ValueTag) : Nat := tag.ctorIdx

def MemorySegmentKind.ordinal (kind : MemorySegmentKind) : Nat := kind.ctorIdx

theorem Trap.ordinal_inj {left right : Trap}
    (same : left.ordinal = right.ordinal) : left = right := by
  have rebuilt := congrArg Trap.ofNat same
  rwa [ordinal, ordinal, ofNat_ctorIdx, ofNat_ctorIdx] at rebuilt

theorem ValueTag.ordinal_inj {left right : ValueTag}
    (same : left.ordinal = right.ordinal) : left = right := by
  have rebuilt := congrArg ValueTag.ofNat same
  rwa [ordinal, ordinal, ofNat_ctorIdx, ofNat_ctorIdx] at rebuilt

theorem MemorySegmentKind.ordinal_inj {left right : MemorySegmentKind}
    (same : left.ordinal = right.ordinal) : left = right := by
  have rebuilt := congrArg MemorySegmentKind.ofNat same
  rwa [ordinal, ordinal, ofNat_ctorIdx, ofNat_ctorIdx] at rebuilt

/-- The words of one trace entry.  An absent field is hashed as zero. -/
def traceEntryWords (entry : TraceEntry) : List UInt64 :=
  [UInt64.ofNat entry.pc,
    UInt64.ofNat entry.opcode.ordinal,
    match entry.writeReg with
    | some reg => UInt64.ofNat (reg + 1)
    | none => 0,
    match entry.writeValue with
    | some value => value.toUInt64
    | none => 0,
    match entry.writeTag with
    | some tag => UInt64.ofNat (tag.ordinal + 1)
    | none => 0,
    match entry.trap with
    | some trap => UInt64.ofNat trap.ordinal
    | none => 0]

def trapPayloadWords : Option TrapPayload → List UInt64
  | some payload =>
      [1, UInt64.ofNat payload.trap.ordinal, UInt64.ofNat payload.pc,
        UInt64.ofNat payload.opcode.ordinal, payload.a.toUInt64,
        payload.b.toUInt64, payload.c.toUInt64,
        UInt64.ofNat payload.segment.ordinal,
        UInt64.ofNat payload.detail.length]
        ++ payload.detail.map UInt8.toUInt64
  | none => [0]

def policyWords : Option Policy → List UInt64
  | some policy => [1, policy.tier.toInt64.toUInt64]
  | none => [0]

/-- The words `stateHash` mixes, in order. -/
def stateWords (state : State) : List UInt64 :=
  [UInt64.ofNat state.pc, if state.halted then 1 else 0,
    UInt64.ofNat state.gcCycles]
    ++ (List.ofFn state.registers).map Int64.toUInt64
    ++ state.memory.map Int64.toUInt64
    ++ UInt64.ofNat state.trace.length
      :: state.trace.flatMap traceEntryWords
    ++ trapPayloadWords state.lastTrapPayload
    ++ policyWords state.policy

def stateHash (state : State) : UInt64 :=
  (stateWords state).foldl mixU64 fnvOffsetBasis

end T81VM.VM
