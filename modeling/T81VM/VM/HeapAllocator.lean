import T81VM.Library.CallHistory
import T81VM.Library.Tiling
import T81VM.VM.Installed

/-!
# The heap allocator

`HeapAlloc` and `HeapFree` keep the blocks of the heap on a stack.  The live
blocks tile the used part of the heap segment, and a release undoes the most
recent allocation that is not released yet.
-/

namespace T81VM.VM

open Tisc PartialSystem CallHistory Tiling

/-- What an executed opcode is to the heap: an allocation, a release, or
neither. -/
def heapEvent (opcode : Opcode) (result : Expected) : Option DyckStep :=
  match result, opcode with
  | .ok _, .heapAlloc => some .U
  | .ok _, .heapFree => some .D
  | _, _ => none

namespace Interpreter

variable {host : Host} {program : Program} {loaded vm final site : Interpreter}
  {insn : Insn} {result : Expected} {block : Nat × Nat}

/-- What the step taken from a state is to the heap. -/
def heapBracket (host : Host) (site : Interpreter) : Option DyckStep :=
  match site.step host with
  | .ok (result, _) =>
      if site.state.halted then none
      else heapEvent site.currentOpcode result
  | .error _ => none

/-- The next step allocates the block: its register receives the base, and
its immediate is the size. -/
inductive Allocates (host : Host) (site : Interpreter) (block : Nat × Nat) :
    Prop where
  | intro {insn : Insn} {reg : Fin 243} {final : Interpreter}
      (fetches : site.Fetches insn)
      (opcode : insn.opcode = .heapAlloc)
      (index : registerIndex insn.a = .ok reg)
      (stepped : site.step host = .ok (.ok (), final))
      (base : (final.state.registers reg).toInt = block.1)
      (size : insn.b.toInt = block.2)

/-- After the first `count` steps, `site` is where the most recent allocation
was made that is not released yet. -/
def LastLive (host : Host) (loaded : Interpreter) (count : Nat)
    (site : Interpreter) : Prop :=
  ∃ earlier since,
    visited (step host) count loaded = earlier ++ site :: since ∧
    heapBracket host site = some .U ∧ Balanced (heapBracket host) since

/-- The heap after the first `count` steps of a run. -/
structure HeapSafe (host : Host) (loaded : Interpreter) (count : Nat)
    (vm : Interpreter) : Prop where
  /-- The frames are the blocks of the allocations that are not released,
  the most recent one first. -/
  live : ∃ sites,
    Pending (heapBracket host) (visited (step host) count loaded) sites ∧
    List.Forall₂ (Allocates host) sites vm.state.heapFrames
  consecutive : vm.state.heapFrames.IsChain
    fun upper lower => lower.1 + lower.2 = upper.1
  disjoint : vm.state.heapFrames.Pairwise
    fun upper lower => cells upper ∩ cells lower = ∅
  nonempty : ∀ block ∈ vm.state.heapFrames, 0 < block.2
  tiles : ⋃ block ∈ vm.state.heapFrames, cells block =
    Set.Ico vm.state.layout.heap.start vm.state.heapPtr
  below : vm.state.heapPtr ≤ vm.state.layout.heap.limit
  allocates : ∀ block, Allocates host vm block →
    cells block ⊆ {addr | vm.state.layout.heap.contains addr = true} ∧
      ∀ other ∈ vm.state.heapFrames, cells block ∩ cells other = ∅
  frees : ∀ insn, vm.Fetches insn → insn.opcode = .heapFree →
    ∃ reg, registerIndex insn.a = .ok reg ∧
      ((∃ final, vm.step host = .ok (.ok (), final)) ↔
        ∃ site block, LastLive host loaded count site ∧
          Allocates host site block ∧
          (vm.state.registers reg).toInt = block.1 ∧
          insn.b.toInt = block.2)
  restores : ∀ insn final, vm.Fetches insn → insn.opcode = .heapFree →
    vm.step host = .ok (.ok (), final) →
      ∃ site, LastLive host loaded count site ∧
        final.state.heapPtr = site.state.heapPtr ∧
        final.state.heapFrames = site.state.heapFrames
  /-- The sum that the limit is compared with does not wrap around. -/
  exact : ∀ size : Int64, 0 < size →
    wrapSize (vm.state.heapPtr + toSize size) =
      vm.state.heapPtr + toSize size

/-! ## One step -/

/-- What an answer does to the heap. -/
inductive HeapMove (vm : Interpreter) (insn : Insn) :
    Expected → Interpreter → Prop where
  | kept {result : Expected} {final : Interpreter}
      (neither : heapEvent insn.opcode result = none)
      (ptr : final.state.heapPtr = vm.state.heapPtr)
      (frames : final.state.heapFrames = vm.state.heapFrames) :
      HeapMove vm insn result final
  | allocated {reg : Fin 243} {final : Interpreter}
      (opcode : insn.opcode = .heapAlloc)
      (index : registerIndex insn.a = .ok reg)
      (positive : 0 < insn.b)
      (fits : wrapSize (vm.state.heapPtr + toSize insn.b) ≤
        vm.state.layout.heap.limit)
      (ptr : final.state.heapPtr =
        wrapSize (vm.state.heapPtr + toSize insn.b))
      (frames : final.state.heapFrames =
        (vm.state.heapPtr, toSize insn.b) :: vm.state.heapFrames)
      (base : final.state.registers reg = ofSize vm.state.heapPtr) :
      HeapMove vm insn (.ok ()) final
  | freed {reg : Fin 243} {top : Nat × Nat} {final : Interpreter}
      (opcode : insn.opcode = .heapFree)
      (index : registerIndex insn.a = .ok reg)
      (base : toSize (vm.state.registers reg) = top.1)
      (size : requestedSize insn.b = top.2)
      (ptr : final.state.heapPtr = top.1)
      (frames : vm.state.heapFrames = top :: final.state.heapFrames) :
      HeapMove vm insn (.ok ()) final

theorem heapEvent_neither {opcode : Opcode} (result : Expected)
    (noAlloc : role opcode ≠ .heapAllocates)
    (noFree : role opcode ≠ .heapFrees) : heapEvent opcode result = none := by
  unfold heapEvent
  split
  · exact absurd rfl noAlloc
  · exact absurd rfl noFree
  · rfl

theorem HeapMove.of_transition {pc : Nat} {answer : Expected × Interpreter}
    (transition : Transition vm insn pc answer) :
    HeapMove vm insn answer.1 answer.2 := by
  cases transition with
  | faulted => exact .kept rfl rfl rfl
  | heapAllocated allocates index positive fits =>
      have opcode : insn.opcode = .heapAlloc :=
        opcode_of_role (by rw [allocates, Role.soleOpcode])
      exact .allocated opcode index positive fits rfl rfl
        (Function.update_self _ _ _)
  | heapFreed releases index heap base size =>
      have opcode : insn.opcode = .heapFree :=
        opcode_of_role (by rw [releases, Role.soleOpcode])
      exact .freed opcode index base size rfl heap
  | idled same | halted same | written same | madeOption same
  | madeResult same | madeEnum same | madeTensor same | bumped same
  | stored same | pushed same | popped same | jumped same | passed same
  | called same | returned same | stackAllocated same | stackFreed same =>
      exact .kept (heapEvent_neither _ (by simp [same]) (by simp [same]))
        rfl rfl

theorem heapBracket_of_fetches (fetches : vm.Fetches insn)
    (stepped : vm.step host = .ok (result, final)) :
    heapBracket host vm = heapEvent insn.opcode result := by
  rw [heapBracket, stepped]
  simp only [fetches.running, Bool.false_eq_true, if_false]
  rw [currentOpcode_of_fetches fetches]

theorem heapMove_of_fetches (fetches : vm.Fetches insn)
    (stepped : vm.step host = .ok (result, final)) :
    HeapMove vm insn result final := by
  rw [step_of_fetches fetches] at stepped
  have move := HeapMove.of_transition (execute_transition stepped)
  cases move with
  | kept neither ptr frames => exact .kept neither ptr frames
  | allocated opcode index positive fits ptr frames base =>
      exact .allocated opcode index positive fits ptr frames base
  | freed opcode index base size ptr frames =>
      exact .freed opcode index base size ptr frames

/-- A step is no heap event, or a move of the instruction it executes. -/
theorem step_heapMove (stepped : vm.step host = .ok (result, final)) :
    (heapBracket host vm = none ∧
      final.state.heapPtr = vm.state.heapPtr ∧
      final.state.heapFrames = vm.state.heapFrames) ∨
    ∃ insn, vm.Fetches insn ∧ HeapMove vm insn result final := by
  have answer := step_stepped stepped
  cases answer with
  | resting halted =>
      refine .inl ⟨?_, rfl, rfl⟩
      rw [heapBracket, stepped]
      exact if_pos halted
  | rejected running | overrun running =>
      refine .inl ⟨?_, rfl, rfl⟩
      rw [heapBracket, stepped]
      exact if_neg (by simp [running])
  | executed fetches =>
      exact .inr ⟨_, fetches, heapMove_of_fetches fetches stepped⟩

/-- A completed `HeapAlloc`. -/
theorem HeapMove.allocation (move : HeapMove vm insn (.ok ()) final)
    (opcode : insn.opcode = .heapAlloc) :
    0 < insn.b ∧
      wrapSize (vm.state.heapPtr + toSize insn.b) ≤
        vm.state.layout.heap.limit ∧
      ∃ reg, registerIndex insn.a = .ok reg ∧
        final.state.registers reg = ofSize vm.state.heapPtr := by
  cases move with
  | kept neither =>
      rw [opcode] at neither
      cases neither
  | allocated _ index positive fits ptr frames base =>
      exact ⟨positive, fits, _, index, base⟩
  | freed release =>
      rw [opcode] at release
      cases release

/-- A completed `HeapFree`. -/
theorem HeapMove.release (move : HeapMove vm insn (.ok ()) final)
    (opcode : insn.opcode = .heapFree) :
    ∃ reg top, registerIndex insn.a = .ok reg ∧
      toSize (vm.state.registers reg) = top.1 ∧
      requestedSize insn.b = top.2 ∧
      final.state.heapPtr = top.1 ∧
      vm.state.heapFrames = top :: final.state.heapFrames := by
  cases move with
  | kept neither =>
      rw [opcode] at neither
      cases neither
  | allocated allocation =>
      rw [opcode] at allocation
      cases allocation
  | freed _ index base size ptr frames =>
      exact ⟨_, _, index, base, size, ptr, frames⟩

/-! ## The invariant -/

/-- The allocations that made the frames, the most recent one first; each
was made on top of the frames below its own. -/
inductive Stacked (host : Host) :
    List Interpreter → List (Nat × Nat) → Prop where
  | nil : Stacked host [] []
  | cons {site : Interpreter} {sites : List Interpreter} {block : Nat × Nat}
      {frames : List (Nat × Nat)}
      (opens : Allocates host site block)
      (base : site.state.heapPtr = block.1)
      (under : site.state.heapFrames = frames)
      (older : Stacked host sites frames) :
      Stacked host (site :: sites) (block :: frames)

/-- The frames tile the used part of the heap, and the pending allocations
of the history made them. -/
structure HeapTracked (host : Host) (program : Program)
    (history : List Interpreter) (vm : Interpreter) : Prop
    extends Accepted program vm where
  stacked : ∃ sites, Pending (heapBracket host) history sites ∧
    Stacked host sites vm.state.heapFrames
  tiles : Tiles (program.insns.length + 256) vm.state.heapPtr
    vm.state.heapFrames
  below : vm.state.heapPtr ≤ program.insns.length + 1024

theorem Installed.heap_eq (installed : Installed program vm) :
    vm.state.layout.heap =
      { start := program.insns.length + 256
        limit := program.insns.length + 1024 } := by
  rw [installed.layout_eq, initialLayout_heap]

theorem Stacked.allocates {sites : List Interpreter}
    {frames : List (Nat × Nat)} (stacked : Stacked host sites frames) :
    List.Forall₂ (Allocates host) sites frames := by
  induction stacked with
  | nil => exact List.Forall₂.nil
  | cons opens base under older induction =>
      exact List.Forall₂.cons opens induction

theorem Loads.heapTracked (loads : Loads program vm)
    (accepted : validateProgram program = none) :
    HeapTracked host program [] vm := by
  obtain ⟨policy, state⟩ := loads.state_eq
  have frames : vm.state.heapFrames = [] := by rw [state]; rfl
  have ptr : vm.state.heapPtr = program.insns.length + 256 := by
    rw [state]
    rfl
  refine ⟨loads.accepted accepted, ⟨[], .balanced .nil, ?_⟩, ?_, by omega⟩
  · rw [frames]
    exact .nil
  · rw [frames, ptr]
    exact .nil

/-- A positive word as a size. -/
theorem toSize_of_pos {size : Int64} (positive : 0 < size) :
    0 < toSize size ∧ toSize size < 2 ^ 63 ∧
      size.toInt = (toSize size : Int) := by
  have cast := toSize_of_nonneg (Int64.le_of_lt positive)
  have above : 0 < size.toInt := by
    simpa using Int64.lt_iff_toInt_lt.mp positive
  have bounded := size.toInt_lt
  omega

theorem HeapTracked.exact {history : List Interpreter}
    (tracked : HeapTracked host program history vm) {size : Int64}
    (positive : 0 < size) :
    wrapSize (vm.state.heapPtr + toSize size) =
      vm.state.heapPtr + toSize size := by
  have below := tracked.below
  have small := program.length_lt
  have bounded := (toSize_of_pos positive).2.1
  exact Nat.mod_eq_of_lt (by omega)

/-- A step keeps the invariant. -/
theorem HeapTracked.step {history : List Interpreter}
    (tracked : HeapTracked host program history vm)
    (stepped : vm.step host = .ok (result, final)) :
    HeapTracked host program (history ++ [vm]) final := by
  have accepted := tracked.toAccepted.step stepped
  have below := tracked.below
  obtain ⟨sites, pending, stacked⟩ := tracked.stacked
  have untouched : heapBracket host vm = none →
      final.state.heapPtr = vm.state.heapPtr →
      final.state.heapFrames = vm.state.heapFrames →
        HeapTracked host program (history ++ [vm]) final := by
    intro neutral ptr frames
    refine ⟨accepted, ⟨sites, pending.other neutral, ?_⟩, ?_, ?_⟩
    · rw [frames]
      exact stacked
    · rw [ptr, frames]
      exact tracked.tiles
    · rw [ptr]
      exact below
  rcases step_heapMove stepped with ⟨neutral, ptr, frames⟩ |
    ⟨insn, fetches, move⟩
  · exact untouched neutral ptr frames
  · have event := heapBracket_of_fetches fetches stepped
    cases move with
    | kept neither ptr frames =>
        exact untouched (event.trans neither) ptr frames
    | @allocated reg _ opcode index positive fits ptr frames base =>
        rw [opcode] at event
        obtain ⟨nonempty, _, size⟩ := toSize_of_pos positive
        rw [tracked.exact positive] at ptr fits
        have small := program.length_lt
        have address : (final.state.registers reg).toInt =
            vm.state.heapPtr := by
          rw [base]
          exact toInt_ofSize (by omega)
        have opens : Allocates host vm (vm.state.heapPtr, toSize insn.b) :=
          .intro fetches opcode index stepped address size
        refine ⟨accepted, ⟨vm :: sites, pending.push event, ?_⟩, ?_, ?_⟩
        · rw [frames]
          exact .cons opens rfl rfl stacked
        · rw [ptr, frames]
          exact .cons tracked.tiles nonempty
        · rw [ptr]
          rw [tracked.toInstalled.heap_eq] at fits
          exact fits
    | freed opcode index base size ptr frames =>
        rw [opcode] at event
        rw [frames] at stacked
        obtain ⟨lower, nonempty, top⟩ := (frames ▸ tracked.tiles).tail
        cases stacked with
        | cons opens siteBase under older =>
            refine ⟨accepted, ⟨_, pending.pop event, older⟩, ?_, ?_⟩
            · rw [ptr]
              exact lower
            · omega

theorem heapTracked_iterate {count : Nat}
    (accepted : validateProgram program = none)
    (loads : Loads program loaded)
    (reached : iterate (Interpreter.step host) count loaded = .ok vm) :
    HeapTracked host program (visited (Interpreter.step host) count loaded)
      vm := by
  induction count generalizing vm with
  | zero =>
      cases reached
      exact loads.heapTracked accepted
  | succ count induction =>
      obtain ⟨middle, reply, earlier, stepped⟩ := iterate_succ_last.mp reached
      rw [visited_succ earlier]
      exact (induction earlier).step stepped

/-! ## Allocation and release -/

/-- A step allocates one block at most. -/
theorem Allocates.unique {other : Nat × Nat} (first : Allocates host site block)
    (second : Allocates host site other) : block = other := by
  cases first with
  | intro fetches _ index stepped base size =>
      cases second with
      | intro again _ sameIndex sameStep otherBase otherSize =>
          cases fetches.unique again
          rw [index] at sameIndex
          cases sameIndex
          rw [stepped] at sameStep
          cases sameStep
          apply Prod.ext
          · exact Int.ofNat.inj (base.symm.trans otherBase)
          · exact Int.ofNat.inj (size.symm.trans otherSize)

/-- A block is allocated on top of the live ones, inside the segment. -/
theorem HeapTracked.allocates {history : List Interpreter}
    (tracked : HeapTracked host program history vm)
    (allocates : Allocates host vm block) :
    block.1 = vm.state.heapPtr ∧
      block.1 + block.2 ≤ program.insns.length + 1024 := by
  cases allocates with
  | intro fetches opcode index stepped base size =>
      have move := heapMove_of_fetches fetches stepped
      obtain ⟨positive, fits, reg, sameIndex, register⟩ :=
        move.allocation opcode
      rw [index] at sameIndex
      cases sameIndex
      have below := tracked.below
      have small := program.length_lt
      have address := toInt_ofSize
        (show vm.state.heapPtr < 2 ^ 63 by omega)
      rw [register, address] at base
      rw [(toSize_of_pos positive).2.2] at size
      rw [tracked.exact positive, tracked.toInstalled.heap_eq] at fits
      have fits : vm.state.heapPtr + toSize _ ≤
        program.insns.length + 1024 := fits
      omega

/-- The most recent allocation that is not released is the first one of the
pending ones. -/
theorem lastLive_iff {count : Nat} {sites : List Interpreter}
    (pending : Pending (heapBracket host)
      (visited (Interpreter.step host) count loaded) sites) :
    LastLive host loaded count site ↔ ∃ rest, sites = site :: rest := by
  constructor
  · rintro ⟨earlier, since, split, opens, matched⟩
    rw [split] at pending
    exact pending.eq_most_recent opens matched
  · rintro ⟨rest, rfl⟩
    exact pending.most_recent

/-- A release completes when it names the top frame. -/
theorem step_heapFree {reg : Fin 243} (fetches : vm.Fetches insn)
    (opcode : insn.opcode = .heapFree)
    (index : registerIndex insn.a = .ok reg) :
    (∃ final, vm.step host = .ok (.ok (), final)) ↔
      ∃ top frames, vm.state.heapFrames = top :: frames ∧
        toSize (vm.state.registers reg) = top.1 ∧
        requestedSize insn.b = top.2 := by
  constructor
  · rintro ⟨final, stepped⟩
    have move := heapMove_of_fetches fetches stepped
    obtain ⟨_, top, sameIndex, base, size, _, frames⟩ := move.release opcode
    rw [index] at sameIndex
    cases sameIndex
    exact ⟨top, _, frames, base, size⟩
  · rintro ⟨top, frames, heap, base, size⟩
    have begun : vm.beginInsn.state.heapFrames = top :: frames := heap
    have read : vm.beginInsn.register insn.a =
        .ok (vm.state.registers reg) :=
      register_eq_ok.mpr ⟨reg, index, rfl⟩
    have matching : ¬ (toSize (vm.state.registers reg) ≠ top.1 ∨
        requestedSize insn.b ≠ top.2) := by simp [base, size]
    have executed : ∃ final, vm.beginInsn.executeHeapFree insn vm.state.pc =
        .ok (.ok (), final) := by
      rw [executeHeapFree, begun]
      simp only [read, bind, Except.bind, if_neg matching]
      exact ⟨_, rfl⟩
    rw [step_of_fetches fetches, execute, opcode]
    exact executed

/-- A size below the signed words, as the word it casts from. -/
theorem toSize_eq_iff {value : Int64} {size : Nat} (small : size < 2 ^ 63) :
    toSize value = size ↔ value.toInt = size := by
  by_cases negative : value < 0
  · have large := toSize_of_neg negative
    have below : value.toInt < 0 := by
      simpa using Int64.lt_iff_toInt_lt.mp negative
    omega
  · have cast := toSize_of_nonneg (Int64.not_lt.mp negative)
    omega

theorem requestedSize_eq_iff {value : Int64} {size : Nat}
    (positive : 0 < size) (small : size < 2 ^ 63) :
    requestedSize value = size ↔ value.toInt = size := by
  rw [requestedSize]
  by_cases above : value > 0
  · rw [if_pos above]
    exact toSize_eq_iff small
  · have below : value.toInt ≤ 0 := by
      simpa using Int64.le_iff_toInt_le.mp (Int64.not_lt.mp above)
    rw [if_neg above]
    omega

/-! ## Every guest run -/

/-- The invariant gives the whole contract of the allocator. -/
theorem HeapTracked.heapSafe {count : Nat}
    (accepted : validateProgram program = none)
    (tracked : HeapTracked host program
      (visited (Interpreter.step host) count loaded) vm) :
    HeapSafe host loaded count vm := by
  obtain ⟨sites, pending, stacked⟩ := tracked.stacked
  have tiles := tracked.tiles
  have heap := tracked.toInstalled.heap_eq
  have below := tracked.below
  have small := program.length_lt
  refine {
    live := ⟨sites, pending, stacked.allocates⟩
    consecutive := tiles.consecutive
    disjoint := tiles.pairwise_disjoint
    nonempty := fun block member => tiles.nonempty member
    tiles := by rw [heap]; exact tiles.covers
    below := by rw [heap]; exact below
    allocates := ?allocates
    frees := ?frees
    restores := ?restores
    exact := fun size positive => tracked.exact positive }
  case allocates =>
    intro block allocates
    obtain ⟨base, fits⟩ := tracked.allocates allocates
    constructor
    · intro addr inside
      have start := tiles.start_le
      apply (MemorySegment.contains_iff _ _).mpr
      rw [heap]
      obtain ⟨above, under⟩ := Set.mem_Ico.mp inside
      show program.insns.length + 256 ≤ addr ∧
        addr < program.insns.length + 1024
      omega
    · intro other member
      have apart := @Tiles.disjoint_above _ _ block.2 _ _ tiles member
      rw [← base] at apart
      exact apart
  case frees =>
    intro insn fetches opcode
    have valid := tracked.toInstalled.validOperands accepted fetches
    rw [validOperands, opcode] at valid
    obtain ⟨reg, index⟩ := registerIndex_of_validReg valid
    refine ⟨reg, index, ?_⟩
    rw [step_heapFree fetches opcode index]
    constructor
    · rintro ⟨top, frames, split, base, size⟩
      rw [split] at stacked tiles
      obtain ⟨lower, nonempty, upper⟩ := tiles.tail
      cases stacked with
      | @cons site rest _ _ opens siteBase under older =>
          have last := (lastLive_iff pending).mpr ⟨rest, rfl⟩
          refine ⟨site, top, last, opens, ?_, ?_⟩
          · exact (toSize_eq_iff (by omega)).mp base
          · exact (requestedSize_eq_iff nonempty (by omega)).mp size
    · rintro ⟨site, block, last, opens, base, size⟩
      obtain ⟨rest, rfl⟩ := (lastLive_iff pending).mp last
      generalize split : vm.state.heapFrames = frames at stacked tiles
      cases stacked with
      | @cons _ _ top lower made siteBase under older =>
          cases opens.unique made
          obtain ⟨_, nonempty, upper⟩ := tiles.tail
          refine ⟨block, lower, rfl, ?_, ?_⟩
          · exact (toSize_eq_iff (by omega)).mpr base
          · exact (requestedSize_eq_iff nonempty (by omega)).mpr size
  case restores =>
    intro insn final fetches opcode stepped
    have move := heapMove_of_fetches fetches stepped
    obtain ⟨_, top, _, _, _, ptr, frames⟩ := move.release opcode
    rw [frames] at stacked
    cases stacked with
    | @cons site rest _ _ opens siteBase under older =>
        have last := (lastLive_iff pending).mpr ⟨rest, rfl⟩
        exact ⟨site, last, ptr.trans siteBase.symm, under.symm⟩

/-- The heap is safe in every state a guest reaches from an accepted
program. -/
theorem heapSafe_of_run {calls : List Call} {replies : List Reply}
    (accepted : validateProgram program = none)
    (loads : Loads program loaded) (guest : ∀ call ∈ calls, call.guest)
    (finished : run (call host) calls loaded = .ok (replies, vm)) :
    ∃ count, iterate (Interpreter.step host) count loaded = .ok vm ∧
      HeapSafe host loaded count vm := by
  obtain ⟨count, reached⟩ := run_guest_iterate guest finished
  have tracked := heapTracked_iterate accepted loads reached
  exact ⟨count, reached, tracked.heapSafe accepted⟩

/-- The allocation and release of the project's own memory test. -/
def allocateAndFree : Program where
  insns := [
    { opcode := .heapAlloc, a := 3, b := 32, c := 0 },
    { opcode := .heapFree, a := 3, b := 32, c := 0 },
    { opcode := .halt, a := 0, b := 0, c := 0 }]
  axionPolicyText := []
  fits := by decide

/-- The heap is safe between the allocation and the release of the test. -/
theorem heapSafe_of_run_allocateAndFree :
    ∃ replies vm, run (call strictHost) [.step]
        (freshlyLoaded allocateAndFree) = .ok (replies, vm) ∧
      vm.state.heapFrames = [(259, 32)] ∧
      ∃ count, iterate (Interpreter.step strictHost) count
          (freshlyLoaded allocateAndFree) = .ok vm ∧
        HeapSafe strictHost (freshlyLoaded allocateAndFree) count vm := by
  have finished : run (call strictHost) [.step]
      (freshlyLoaded allocateAndFree) = .ok (_, _) := rfl
  exact ⟨_, _, finished, rfl, heapSafe_of_run rfl (loads_freshlyLoaded rfl)
    (by simp [Call.guest]) finished⟩

end Interpreter

end T81VM.VM
