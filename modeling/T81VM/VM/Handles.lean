import T81VM.Library.EntryPools
import T81VM.VM.Installed

/-!
# Handles of structured values

A tagged register or payload denotes an existing entry of the pool its tag
names.  An entry is made from a register that already denotes one, so the
order of creation ranks the pools and chains of payloads end.
-/

namespace T81VM.VM

open Tisc PartialSystem EntryPools

/-- A value together with its tag. -/
abbrev Reference := Int64 × ValueTag

/-- The pools whose entries carry a payload. -/
inductive HandleKind where
  | option | result | enum
  deriving DecidableEq, Repr

def handleKind : ValueTag → Option HandleKind
  | .optionHandle => some .option
  | .resultHandle => some .result
  | .enumHandle => some .enum
  | .int | .tensorHandle | .shapeHandle | .weightsTensorHandle => none

/-- The entry a tagged value names, the first handle of a pool being one. -/
def entryOf (reference : Reference) : Option (HandleKind × Nat) :=
  (handleKind reference.2).map fun kind => (kind, toSize reference.1 - 1)

namespace Interpreter

variable (vm : Interpreter)

/-- The number of entries of a pool. -/
def poolSize : HandleKind → Nat
  | .option => vm.state.optionPool.length
  | .result => vm.state.resultPool.length
  | .enum => vm.state.enumPool.length

/-- The number of entries of all pools. -/
def poolEntries : Nat :=
  vm.poolSize .option + vm.poolSize .result + vm.poolSize .enum

/-- The pools as contents of entries. -/
def entryPools : Pools HandleKind
  | .option => vm.state.optionPool.map fun entry =>
      entryOf (entry.payload, entry.payloadTag)
  | .result => vm.state.resultPool.map fun entry =>
      entryOf (entry.payload, entry.payloadTag)
  | .enum => vm.state.enumPool.map fun entry =>
      entryOf (entry.payload, entry.payloadTag)

/-- A tagged value that is no tensor or shape handle, and that names an entry
of its pool if it is any other structured handle. -/
def Denotes (reference : Reference) : Prop :=
  reference.2 ≠ .tensorHandle ∧ reference.2 ≠ .shapeHandle ∧
    ∀ kind, handleKind reference.2 = some kind →
      1 ≤ reference.1.toInt ∧ reference.1.toInt ≤ vm.poolSize kind

/-- The payload behind a structured handle. -/
def unwrap (reference : Reference) : Option Reference :=
  match reference.2 with
  | .optionHandle => (vm.optionPtr reference.1).map fun entry =>
      (entry.payload, entry.payloadTag)
  | .resultHandle => (vm.resultPtr reference.1).map fun entry =>
      (entry.payload, entry.payloadTag)
  | .enumHandle => (vm.enumPtr reference.1).map fun entry =>
      (entry.payload, entry.payloadTag)
  | _ => none

/-- A chain of payloads from one tagged value to another. -/
inductive UnwrapsTo (vm : Interpreter) : Nat → Reference → Reference → Prop
    where
  | done (reference : Reference) : UnwrapsTo vm 0 reference reference
  | step {count : Nat} {reference payload last : Reference}
      (unwrapped : vm.unwrap reference = some payload)
      (rest : UnwrapsTo vm count payload last) :
      UnwrapsTo vm (count + 1) reference last

/-- Every handle of the state is sound. -/
structure HandlesSound (vm : Interpreter) : Prop where
  registers : ∀ reg,
    vm.Denotes (vm.state.registers reg, vm.state.registerTags reg)
  options : ∀ entry ∈ vm.state.optionPool,
    vm.Denotes (entry.payload, entry.payloadTag)
  results : ∀ entry ∈ vm.state.resultPool,
    vm.Denotes (entry.payload, entry.payloadTag)
  enums : ∀ entry ∈ vm.state.enumPool,
    vm.Denotes (entry.payload, entry.payloadTag)
  acyclic : ∀ entry,
    ¬ Relation.TransGen (RefersTo vm.entryPools) entry entry
  unwraps : ∀ reg, ∃ count last, count ≤ vm.poolEntries ∧
    vm.UnwrapsTo count
      (vm.state.registers reg, vm.state.registerTags reg) last ∧
    handleKind last.2 = none
  optionNonNull : ∀ reg, vm.state.registerTags reg = .optionHandle →
    vm.optionPtr (vm.state.registers reg) ≠ none
  resultNonNull : ∀ reg, vm.state.registerTags reg = .resultHandle →
    vm.resultPtr (vm.state.registers reg) ≠ none
  enumNonNull : ∀ reg, vm.state.registerTags reg = .enumHandle →
    vm.enumPtr (vm.state.registers reg) ≠ none

/-- The pools are extended at the end, and handles keep their meaning. -/
structure PoolsKept (vm final : Interpreter) : Prop where
  options : vm.state.optionPool <+: final.state.optionPool
  results : vm.state.resultPool <+: final.state.resultPool
  enums : vm.state.enumPool <+: final.state.enumPool
  tensors : vm.state.tensorPool <+: final.state.tensorPool
  shapes : vm.state.shapePool <+: final.state.shapePool
  optionPtr : ∀ handle entry,
    vm.optionPtr handle = some entry → final.optionPtr handle = some entry
  resultPtr : ∀ handle entry,
    vm.resultPtr handle = some entry → final.resultPtr handle = some entry
  enumPtr : ∀ handle entry,
    vm.enumPtr handle = some entry → final.enumPtr handle = some entry

/-- What every step preserves. -/
structure HandleInvariant (vm : Interpreter) : Prop where
  registers : ∀ reg,
    vm.Denotes (vm.state.registers reg, vm.state.registerTags reg)
  options : ∀ entry ∈ vm.state.optionPool,
    vm.Denotes (entry.payload, entry.payloadTag)
  results : ∀ entry ∈ vm.state.resultPool,
    vm.Denotes (entry.payload, entry.payloadTag)
  enums : ∀ entry ∈ vm.state.enumPool,
    vm.Denotes (entry.payload, entry.payloadTag)
  ranked : ∃ rank, Ranked vm.entryPools rank vm.poolEntries

variable {vm} {host : Host} {program : Program} {final : Interpreter}

theorem denotes_int {value : Int64} : vm.Denotes (value, .int) :=
  ⟨nofun, nofun, by simp [handleKind]⟩

theorem denotes_weights {value : Int64} :
    vm.Denotes (value, .weightsTensorHandle) :=
  ⟨nofun, nofun, by simp [handleKind]⟩

theorem Denotes.mono {reference : Reference}
    (denotes : vm.Denotes reference)
    (grows : ∀ kind, vm.poolSize kind ≤ final.poolSize kind) :
    final.Denotes reference := by
  obtain ⟨tensor, shape, bounds⟩ := denotes
  refine ⟨tensor, shape, fun kind named => ?_⟩
  obtain ⟨lower, upper⟩ := bounds kind named
  have larger := grows kind
  exact ⟨lower, by omega⟩

theorem entryPools_length (kind : HandleKind) :
    (vm.entryPools kind).length = vm.poolSize kind := by
  cases kind <;> exact List.length_map _

/-- A denoted entry exists. -/
theorem Denotes.contains {reference : Reference}
    (denotes : vm.Denotes reference) {entry : HandleKind × Nat}
    (named : entryOf reference = some entry) :
    Contains vm.entryPools entry := by
  obtain ⟨kind, kindNamed, rfl⟩ := Option.map_eq_some_iff.mp named
  obtain ⟨lower, upper⟩ := denotes.2.2 kind kindNamed
  have nonneg : 0 ≤ reference.1 :=
    Int64.le_iff_toInt_le.mpr (by simp; omega)
  have cast := toSize_of_nonneg nonneg
  show toSize reference.1 - 1 < (vm.entryPools kind).length
  rw [entryPools_length]
  omega

theorem HandleInvariant.source {value : Int64} {tag : ValueTag}
    (sound : HandleInvariant vm) (source : Source vm value tag) :
    vm.Denotes (value, tag) := by
  cases source with
  | computed => exact denotes_int
  | weights => exact denotes_weights
  | register reg => exact sound.registers reg
  | optionPayload member => exact sound.options _ member
  | resultPayload member => exact sound.results _ member
  | enumPayload member => exact sound.enums _ member

/-- Writing a register with a denoting value keeps the invariant. -/
theorem HandleInvariant.write {reg : Fin 243} {value : Int64}
    {tag : ValueTag} (sound : HandleInvariant vm)
    (denotes : vm.Denotes (value, tag)) :
    HandleInvariant (vm.assignRegister reg value tag) := by
  refine ⟨fun other => ?_, sound.options, sound.results, sound.enums,
    sound.ranked⟩
  show vm.Denotes (Function.update vm.state.registers reg value other,
    Function.update vm.state.registerTags reg tag other)
  by_cases same : other = reg
  · subst same
    rw [Function.update_self, Function.update_self]
    exact denotes
  · rw [Function.update_of_ne same, Function.update_of_ne same]
    exact sound.registers other

/-- The tail of a writing instruction keeps the invariant. -/
theorem HandleInvariant.wrote {insn : Insn} {pc : Nat} {reg : Fin 243}
    {value : Int64} {tag : ValueTag} (sound : HandleInvariant vm)
    (denotes : vm.Denotes (value, tag)) :
    HandleInvariant (vm.wrote insn pc reg value tag).2 := by
  have written := @HandleInvariant.write vm reg value tag sound denotes
  exact ⟨written.registers, written.options, written.results, written.enums,
    written.ranked⟩

/-- The handle of a new entry. -/
theorem denotes_new {tag : ValueTag} {kind : HandleKind} {size : Nat}
    (structured : handleKind tag = some kind) (room : size < maxPool)
    (grown : size < vm.poolSize kind) :
    vm.Denotes (ofSize (size + 1), tag) := by
  have cast : (ofSize (size + 1)).toInt = size + 1 := by
    have small : size + 1 < 2 ^ 63 := by
      simp only [maxPool, ptrdiffMax] at room
      omega
    exact toInt_ofSize small
  refine ⟨?_, ?_, ?_⟩
  · rintro rfl
    cases structured
  · rintro rfl
    cases structured
  · intro other named
    rw [structured] at named
    cases named
    constructor
    · show 1 ≤ (ofSize (size + 1)).toInt
      omega
    · show (ofSize (size + 1)).toInt ≤ vm.poolSize kind
      omega

/-- An entry made from a denoting value extends its pool; the other pools
and the registers are as before. -/
theorem HandleInvariant.extend (kind : HandleKind) {payload : Reference}
    (sound : HandleInvariant vm) (denotes : vm.Denotes payload)
    (pools : final.entryPools = push vm.entryPools kind (entryOf payload))
    (registers : final.state.registers = vm.state.registers)
    (tags : final.state.registerTags = vm.state.registerTags)
    (options : ∀ entry ∈ final.state.optionPool,
      entry ∈ vm.state.optionPool ∨
        (entry.payload, entry.payloadTag) = payload)
    (results : ∀ entry ∈ final.state.resultPool,
      entry ∈ vm.state.resultPool ∨
        (entry.payload, entry.payloadTag) = payload)
    (enums : ∀ entry ∈ final.state.enumPool,
      entry ∈ vm.state.enumPool ∨
        (entry.payload, entry.payloadTag) = payload) :
    HandleInvariant final := by
  have size : ∀ other, final.poolSize other =
      if other = kind then vm.poolSize other + 1 else vm.poolSize other := by
    intro other
    rw [← entryPools_length, ← entryPools_length, pools, push]
    by_cases same : other = kind
    · subst same
      simp
    · simp [same]
  have grows : ∀ other, vm.poolSize other ≤ final.poolSize other := by
    intro other
    rw [size]
    split <;> omega
  have entries : final.poolEntries = vm.poolEntries + 1 := by
    simp only [poolEntries, size]
    cases kind <;> simp <;> omega
  refine ⟨?_, ?_, ?_, ?_, ?_⟩
  · intro reg
    rw [registers, tags]
    exact (sound.registers reg).mono grows
  · intro entry member
    rcases options entry member with old | same
    · exact (sound.options entry old).mono grows
    · exact same ▸ denotes.mono grows
  · intro entry member
    rcases results entry member with old | same
    · exact (sound.results entry old).mono grows
    · exact same ▸ denotes.mono grows
  · intro entry member
    rcases enums entry member with old | same
    · exact (sound.enums entry old).mono grows
    · exact same ▸ denotes.mono grows
  · obtain ⟨rank, ranked⟩ := sound.ranked
    rw [pools, entries]
    exact ⟨_, ranked.push fun target named => denotes.contains named⟩

theorem mem_append_one {α : Type} {pool : List α} {entry other : α}
    (member : other ∈ pool ++ [entry]) : other ∈ pool ∨ other = entry := by
  simpa using member

/-- Pools of which one grew by an entry. -/
theorem entryPools_push {kind : HandleKind}
    {content : Option (HandleKind × Nat)}
    (grown : final.entryPools kind = vm.entryPools kind ++ [content])
    (kept : ∀ other, other ≠ kind →
      final.entryPools other = vm.entryPools other) :
    final.entryPools = push vm.entryPools kind content := by
  funext other
  by_cases same : other = kind
  · subst same
    rw [grown, push, Function.update_self]
  · rw [kept other same, push, Function.update_of_ne same]

theorem HandleInvariant.pushOption {entry : OptionValue}
    (sound : HandleInvariant vm)
    (denotes : vm.Denotes (entry.payload, entry.payloadTag)) :
    HandleInvariant { vm with
      state := { vm.state with
        optionPool := vm.state.optionPool ++ [entry] } } := by
  have pools := @entryPools_push vm { vm with
      state := { vm.state with
        optionPool := vm.state.optionPool ++ [entry] } }
    .option (entryOf (entry.payload, entry.payloadTag)) List.map_append
    (fun other different => by cases other <;> first | rfl | contradiction)
  apply sound.extend .option denotes pools rfl rfl
  · intro other member
    rcases mem_append_one member with old | rfl
    · exact .inl old
    · exact .inr rfl
  · exact fun other member => .inl member
  · exact fun other member => .inl member

theorem HandleInvariant.pushResult {entry : ResultValue}
    (sound : HandleInvariant vm)
    (denotes : vm.Denotes (entry.payload, entry.payloadTag)) :
    HandleInvariant { vm with
      state := { vm.state with
        resultPool := vm.state.resultPool ++ [entry] } } := by
  have pools := @entryPools_push vm { vm with
      state := { vm.state with
        resultPool := vm.state.resultPool ++ [entry] } }
    .result (entryOf (entry.payload, entry.payloadTag)) List.map_append
    (fun other different => by cases other <;> first | rfl | contradiction)
  apply sound.extend .result denotes pools rfl rfl
  · exact fun other member => .inl member
  · intro other member
    rcases mem_append_one member with old | rfl
    · exact .inl old
    · exact .inr rfl
  · exact fun other member => .inl member

theorem HandleInvariant.pushEnum {entry : EnumValue}
    (sound : HandleInvariant vm)
    (denotes : vm.Denotes (entry.payload, entry.payloadTag)) :
    HandleInvariant { vm with
      state := { vm.state with
        enumPool := vm.state.enumPool ++ [entry] } } := by
  have pools := @entryPools_push vm { vm with
      state := { vm.state with
        enumPool := vm.state.enumPool ++ [entry] } }
    .enum (entryOf (entry.payload, entry.payloadTag)) List.map_append
    (fun other different => by cases other <;> first | rfl | contradiction)
  apply sound.extend .enum denotes pools rfl rfl
  · exact fun other member => .inl member
  · exact fun other member => .inl member
  · intro other member
    rcases mem_append_one member with old | rfl
    · exact .inl old
    · exact .inr rfl

/-! ## Every step -/

/-- One instruction keeps the invariant. -/
theorem HandleInvariant.transition {insn : Insn} {pc : Nat}
    {answer : Expected × Interpreter} (sound : HandleInvariant vm)
    (transition : Transition vm insn pc answer) :
    HandleInvariant answer.2 := by
  cases transition with
  | written writes index source few named =>
      have denotes := sound.source source
      exact HandleInvariant.wrote
        ⟨sound.registers, sound.options, sound.results, sound.enums,
          sound.ranked⟩ denotes
  | madeOption interns index source room =>
      have extended := sound.pushOption (sound.source source)
      apply extended.wrote
      apply denotes_new rfl room
      show _ < (vm.state.optionPool ++ [_]).length
      simp
  | madeResult interns index source room =>
      have extended := sound.pushResult (sound.source source)
      apply extended.wrote
      apply denotes_new rfl room
      show _ < (vm.state.resultPool ++ [_]).length
      simp
  | madeEnum interns index source room =>
      have extended := sound.pushEnum (sound.source source)
      apply extended.wrote
      apply denotes_new rfl room
      show _ < (vm.state.enumPool ++ [_]).length
      simp
  | @madeTensor reg operand entry interns index tagged room =>
      -- No register holds a tensor handle to compute with.
      have denotes := sound.registers operand
      exact absurd tagged denotes.1
  | @bumped reg value bumps index =>
      have written := @HandleInvariant.write vm reg value .int sound
        denotes_int
      exact ⟨written.registers, written.options, written.results,
        written.enums, written.ranked⟩
  | @popped reg value pops index below cell =>
      have written := @HandleInvariant.write vm reg value .int sound
        denotes_int
      exact ⟨written.registers, written.options, written.results,
        written.enums, written.ranked⟩
  | @stackAllocated reg events allocates index positive fits above few named =>
      have written := @HandleInvariant.write vm reg
        (ofSize (vm.state.sp - toSize insn.b)) .int sound denotes_int
      exact ⟨written.registers, written.options, written.results,
        written.enums, written.ranked⟩
  | @heapAllocated reg events allocates index positive fits few named =>
      have written := @HandleInvariant.write vm reg
        (ofSize vm.state.heapPtr) .int sound denotes_int
      exact ⟨written.registers, written.options, written.results,
        written.enums, written.ranked⟩
  | faulted | idled | halted | stored | pushed | jumped | passed | called
  | returned | stackFreed | heapFreed =>
      exact ⟨sound.registers, sound.options, sound.results, sound.enums,
        sound.ranked⟩

theorem HandleInvariant.step {result : Expected}
    (sound : HandleInvariant vm)
    (stepped : vm.step host = .ok (result, final)) :
    HandleInvariant final := by
  cases step_stepped stepped with
  | resting => exact sound
  | rejected | overrun =>
      exact ⟨sound.registers, sound.options, sound.results, sound.enums,
        sound.ranked⟩
  | executed fetches transition =>
      have begun : HandleInvariant vm.beginInsn :=
        ⟨sound.registers, sound.options, sound.results, sound.enums,
          sound.ranked⟩
      exact begun.transition transition

/-- A load empties the pools and clears the registers. -/
theorem Loads.handleInvariant (loads : Loads program vm) :
    HandleInvariant vm := by
  obtain ⟨policy, state⟩ := loads.state_eq
  have empty : ∀ kind, vm.entryPools kind = [] := by
    intro kind
    cases kind <;> simp [entryPools, state, initialState]
  have outside : ∀ entry, ¬ Contains vm.entryPools entry := by
    intro entry
    simp [Contains, empty]
  have unrelated : ∀ entry target, ¬ RefersTo vm.entryPools entry target := by
    intro entry target
    simp [RefersTo, empty]
  refine ⟨?_, ?_, ?_, ?_, ?_⟩
  · intro reg
    rw [state]
    exact denotes_int
  · intro entry member
    rw [state] at member
    cases member
  · intro entry member
    rw [state] at member
    cases member
  · intro entry member
    rw [state] at member
    cases member
  · refine ⟨fun _ => 0, ?_, ?_, ?_⟩
    · exact fun entry inside => absurd inside (outside entry)
    · exact fun entry target reference =>
        absurd reference (unrelated entry target)
    · exact fun entry target reference =>
        absurd reference (unrelated entry target)

theorem GuestReachable.handleInvariant
    (reached : GuestReachable host program vm) : HandleInvariant vm :=
  reached.invariant (fun _ loads => loads.handleInvariant)
    (fun _ _ _ sound stepped => sound.step stepped)

/-! ## Unwrapping -/

theorem poolEntry_eq_some {α : Type} {pool : List α} {handle : Int64}
    (lower : 1 ≤ handle.toInt) (upper : handle.toInt ≤ pool.length) :
    ∃ entry, poolEntry pool handle = some entry ∧
      pool[toSize handle - 1]? = some entry ∧ entry ∈ pool := by
  have nonneg : 0 ≤ handle := Int64.le_iff_toInt_le.mpr (by simp; omega)
  have cast := toSize_of_nonneg nonneg
  have inside : toSize handle - 1 < pool.length := by omega
  have positive : ¬ handle ≤ 0 := by
    intro nonpositive
    have bound := Int64.le_iff_toInt_le.mp nonpositive
    simp at bound
    omega
  refine ⟨pool[toSize handle - 1], ?_, List.getElem?_eq_getElem inside,
    List.getElem_mem inside⟩
  rw [poolEntry, if_neg, List.getElem?_eq_getElem inside]
  intro outside
  rcases outside with nonpositive | past
  · exact positive nonpositive
  · omega

/-- A structured handle can be unwrapped, to a denoting payload. -/
theorem HandleInvariant.unwrap {reference : Reference}
    {entry : HandleKind × Nat} (sound : HandleInvariant vm)
    (denotes : vm.Denotes reference)
    (named : entryOf reference = some entry) :
    ∃ payload, vm.unwrap reference = some payload ∧ vm.Denotes payload ∧
      (vm.entryPools entry.1)[entry.2]? = some (entryOf payload) := by
  obtain ⟨kind, kindNamed, rfl⟩ := Option.map_eq_some_iff.mp named
  obtain ⟨lower, upper⟩ := denotes.2.2 kind kindNamed
  obtain ⟨value, tag⟩ := reference
  cases tag with
  | int | tensorHandle | shapeHandle | weightsTensorHandle => cases kindNamed
  | optionHandle =>
      cases kindNamed
      obtain ⟨found, pointer, indexed, member⟩ :=
        poolEntry_eq_some lower upper
      refine ⟨(found.payload, found.payloadTag), ?_,
        sound.options found member, ?_⟩
      · simp only [Interpreter.unwrap, optionPtr]
        rw [pointer]
        rfl
      · simp only [entryPools, List.getElem?_map]
        rw [indexed]
        rfl
  | resultHandle =>
      cases kindNamed
      obtain ⟨found, pointer, indexed, member⟩ :=
        poolEntry_eq_some lower upper
      refine ⟨(found.payload, found.payloadTag), ?_,
        sound.results found member, ?_⟩
      · simp only [Interpreter.unwrap, resultPtr]
        rw [pointer]
        rfl
      · simp only [entryPools, List.getElem?_map]
        rw [indexed]
        rfl
  | enumHandle =>
      cases kindNamed
      obtain ⟨found, pointer, indexed, member⟩ :=
        poolEntry_eq_some lower upper
      refine ⟨(found.payload, found.payloadTag), ?_,
        sound.enums found member, ?_⟩
      · simp only [Interpreter.unwrap, enumPtr]
        rw [pointer]
        rfl
      · simp only [entryPools, List.getElem?_map]
        rw [indexed]
        rfl

/-- Unwrapping follows the unfolding of the entry. -/
theorem HandleInvariant.unwrapsTo {reference : Reference}
    {entry : HandleKind × Nat} {count : Nat} (sound : HandleInvariant vm)
    (denotes : vm.Denotes reference)
    (named : entryOf reference = some entry)
    (unfolds : Unfolds vm.entryPools entry count) :
    ∃ last, vm.UnwrapsTo count reference last ∧
      handleKind last.2 = none := by
  induction unfolds generalizing reference with
  | plain content =>
      obtain ⟨payload, unwrapped, _, found⟩ := sound.unwrap denotes named
      rw [content] at found
      have plain : entryOf payload = none := (Option.some.inj found).symm
      exact ⟨payload, .step unwrapped (.done payload),
        Option.map_eq_none_iff.mp plain⟩
  | refers content rest induction =>
      obtain ⟨payload, unwrapped, payloadDenotes, found⟩ :=
        sound.unwrap denotes named
      rw [content] at found
      have refers := (Option.some.inj found).symm
      obtain ⟨last, chain, plain⟩ := induction payloadDenotes refers
      exact ⟨last, .step unwrapped chain, plain⟩

theorem HandleInvariant.registerUnwraps (sound : HandleInvariant vm)
    (reg : Fin 243) :
    ∃ count last, count ≤ vm.poolEntries ∧
      vm.UnwrapsTo count
        (vm.state.registers reg, vm.state.registerTags reg) last ∧
      handleKind last.2 = none := by
  have denotes := sound.registers reg
  cases named :
      entryOf (vm.state.registers reg, vm.state.registerTags reg) with
  | none =>
      exact ⟨0, _, Nat.zero_le _, .done _, Option.map_eq_none_iff.mp named⟩
  | some entry =>
      obtain ⟨rank, ranked⟩ := sound.ranked
      obtain ⟨count, small, unfolds⟩ :=
        ranked.unfolds (denotes.contains named)
      obtain ⟨last, chain, plain⟩ := sound.unwrapsTo denotes named unfolds
      exact ⟨count, last, small, chain, plain⟩

theorem HandleInvariant.handlesSound (sound : HandleInvariant vm) :
    HandlesSound vm := by
  have pointers : ∀ {α : Type} {pool : List α} {handle : Int64},
      1 ≤ handle.toInt → handle.toInt ≤ pool.length →
        poolEntry pool handle ≠ none := by
    intro α pool handle lower upper
    obtain ⟨entry, pointer, _⟩ := poolEntry_eq_some lower upper
    rw [pointer]
    exact Option.some_ne_none entry
  refine ⟨sound.registers, sound.options, sound.results, sound.enums, ?_,
    sound.registerUnwraps, ?_, ?_, ?_⟩
  · obtain ⟨rank, ranked⟩ := sound.ranked
    exact ranked.acyclic
  · intro reg tagged
    obtain ⟨lower, upper⟩ := (sound.registers reg).2.2 .option
      (congrArg handleKind tagged)
    exact pointers lower upper
  · intro reg tagged
    obtain ⟨lower, upper⟩ := (sound.registers reg).2.2 .result
      (congrArg handleKind tagged)
    exact pointers lower upper
  · intro reg tagged
    obtain ⟨lower, upper⟩ := (sound.registers reg).2.2 .enum
      (congrArg handleKind tagged)
    exact pointers lower upper

/-! ## Stable handles -/

/-- A handle denotes the same entry in a longer pool. -/
theorem poolEntry_of_isPrefix {α : Type} {pool longer : List α}
    {handle : Int64} {entry : α} (extended : pool <+: longer)
    (pointer : poolEntry pool handle = some entry) :
    poolEntry longer handle = some entry := by
  rw [poolEntry] at pointer ⊢
  split at pointer
  · cases pointer
  · rename_i inside
    obtain ⟨positive, small⟩ := not_or.mp inside
    have lengths := extended.length_le
    have still : ¬ (handle ≤ 0 ∨ toSize handle > longer.length) := by
      intro outside
      rcases outside with nonpositive | past
      · exact positive nonpositive
      · omega
    rw [if_neg still]
    obtain ⟨added, rfl⟩ := extended
    have bound := (List.getElem?_eq_some_iff.mp pointer).1
    rw [List.getElem?_append_left bound]
    exact pointer

/-- The lists of entries alone decide what handles denote. -/
theorem PoolsKept.of_isPrefix
    (options : vm.state.optionPool <+: final.state.optionPool)
    (results : vm.state.resultPool <+: final.state.resultPool)
    (enums : vm.state.enumPool <+: final.state.enumPool)
    (tensors : vm.state.tensorPool <+: final.state.tensorPool)
    (shapes : vm.state.shapePool <+: final.state.shapePool) :
    PoolsKept vm final :=
  ⟨options, results, enums, tensors, shapes,
    fun _ _ => poolEntry_of_isPrefix options,
    fun _ _ => poolEntry_of_isPrefix results,
    fun _ _ => poolEntry_of_isPrefix enums⟩

theorem PoolsKept.refl (vm : Interpreter) : PoolsKept vm vm :=
  .of_isPrefix (List.prefix_refl _) (List.prefix_refl _) (List.prefix_refl _)
    (List.prefix_refl _) (List.prefix_refl _)

theorem PoolsKept.trans {middle : Interpreter} (first : PoolsKept vm middle)
    (second : PoolsKept middle final) : PoolsKept vm final :=
  .of_isPrefix (first.options.trans second.options)
    (first.results.trans second.results) (first.enums.trans second.enums)
    (first.tensors.trans second.tensors) (first.shapes.trans second.shapes)

theorem PoolsKept.of_transition {insn : Insn} {pc : Nat}
    {answer : Expected × Interpreter}
    (transition : Transition vm insn pc answer) :
    PoolsKept vm answer.2 := by
  have same := PoolsKept.refl vm
  cases transition with
  | madeOption =>
      exact .of_isPrefix (List.prefix_append _ _) same.results same.enums
        same.tensors same.shapes
  | madeResult =>
      exact .of_isPrefix same.options (List.prefix_append _ _) same.enums
        same.tensors same.shapes
  | madeEnum =>
      exact .of_isPrefix same.options same.results (List.prefix_append _ _)
        same.tensors same.shapes
  | madeTensor =>
      exact .of_isPrefix same.options same.results same.enums
        (List.prefix_append _ _) same.shapes
  | _ =>
      exact .of_isPrefix same.options same.results same.enums same.tensors
        same.shapes

theorem PoolsKept.of_stepped {answer : Expected × Interpreter}
    (stepped : Stepped vm answer) : PoolsKept vm answer.2 := by
  have same := PoolsKept.refl vm
  cases stepped with
  | resting => exact same
  | rejected | overrun =>
      exact .of_isPrefix same.options same.results same.enums same.tensors
        same.shapes
  | executed fetches transition =>
      have kept := PoolsKept.of_transition transition
      exact .of_isPrefix kept.options kept.results kept.enums kept.tensors
        kept.shapes

theorem poolsKept_iterate {count : Nat}
    (continued : iterate (step host) count vm = .ok final) :
    PoolsKept vm final :=
  @iterate_invariant _ _ _ _ (PoolsKept vm)
    (fun _ _ _ kept stepped => kept.trans (.of_stepped (step_stepped stepped)))
    _ _ _ (PoolsKept.refl vm) continued

/-- Whatever a guest runs, every structured handle denotes an entry that
stays as it is, and chains of payloads end. -/
theorem handles_sound (reached : GuestReachable host program vm) :
    HandlesSound vm ∧ ∀ count final,
      iterate (step host) count vm = .ok final → PoolsKept vm final := by
  constructor
  · exact reached.handleInvariant.handlesSound
  · intro count final continued
    exact poolsKept_iterate continued

/-- An empty option in register 0, and its success in register 1. -/
def okOfNone : Program where
  insns := [
    { opcode := .makeOptionNone, a := 0, b := 0, c := 0 },
    { opcode := .makeResultOk, a := 1, b := 0, c := 0 }]
  axionPolicyText := []
  fits := by decide

/-- The handles of both pools are sound after the two steps. -/
theorem handles_sound_okOfNone :
    ∃ vm, run (call strictHost) [.step, .step] (freshlyLoaded okOfNone) =
        .ok ([.result (.ok ()), .result (.ok ())], vm) ∧
      vm.state.registerTags 0 = .optionHandle ∧
      vm.state.registerTags 1 = .resultHandle ∧
      HandlesSound vm ∧ ∀ count final,
        iterate (step strictHost) count vm = .ok final →
          PoolsKept vm final := by
  have finished : run (call strictHost) [.step, .step]
      (freshlyLoaded okOfNone) = .ok (_, _) := rfl
  have reached : GuestReachable strictHost okOfNone _ :=
    ⟨_, _, _, loads_freshlyLoaded rfl, by simp [Call.guest], finished⟩
  exact ⟨_, finished, rfl, rfl, handles_sound reached⟩

end Interpreter

end T81VM.VM
