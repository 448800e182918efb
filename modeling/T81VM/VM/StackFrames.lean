import T81VM.Library.StackHistory
import T81VM.VM.StackSafety

/-!
# The lifetime of a stack frame

A frame is recorded with the stack pointer it leaves behind, but released by
adding its size to the pointer.  The release restores the pointer exactly
when everything pushed above the frame has been popped, and no more.
-/

namespace T81VM.VM

open Tisc PartialSystem StackHistory

namespace Interpreter

variable {host : Host} {program : Program}
  {loaded vm final before popping : Interpreter} {result : Expected}

/-- The next step allocates a stack frame. -/
def StackAllocates (host : Host) (vm : Interpreter) : Prop :=
  ∃ insn final, vm.Fetches insn ∧ insn.opcode = .stackAlloc ∧
    vm.step host = .ok (.ok (), final)

/-- The next step releases a stack frame. -/
def StackReleases (host : Host) (vm : Interpreter) : Prop :=
  ∃ insn final, vm.Fetches insn ∧ insn.opcode = .stackFree ∧
    vm.step host = .ok (.ok (), final)

/-- In the steps from `loaded`, step `first` allocates the frame that step
`last` releases: the frames never get as few as before the allocation. -/
structure FramePair (host : Host) (loaded before popping : Interpreter)
    (first last : Nat) : Prop where
  start : iterate (step host) first loaded = .ok before
  stop : iterate (step host) last loaded = .ok popping
  order : first < last
  allocates : StackAllocates host before
  releases : StackReleases host popping
  deep : ∀ index vm, first < index → index ≤ last →
    iterate (step host) index loaded = .ok vm →
      before.state.stackFrames.length < vm.state.stackFrames.length
  top : popping.state.stackFrames.length =
    before.state.stackFrames.length + 1

/-- The next step of `popping` leaves the stack pointer and the frames of
`before`. -/
def Restores (host : Host) (before popping : Interpreter) : Prop :=
  ∃ final, popping.step host = .ok (.ok (), final) ∧
    final.state.sp = before.state.sp ∧
    final.state.stackFrames = before.state.stackFrames

/-- The release of a frame finds the stack pointer at its base. -/
def FreesAtBase (vm : Interpreter) : Prop :=
  ∀ top, vm.Frees top → vm.state.sp = top.1

/-! ## One step -/

/-- A step keeps the frames, records one or releases the last one. -/
theorem frames_move (stepped : vm.step host = .ok (result, final)) :
    Move vm.state.stackFrames final.state.stackFrames := by
  cases step_stepped stepped with
  | resting | rejected | overrun => exact .kept _
  | executed fetches transition =>
      cases transition with
      | stackAllocated => exact .pushed _ _
      | stackFreed _ _ stack =>
          have stack : vm.state.stackFrames = _ :: _ := stack
          rw [stack]
          exact .popped _ _
      | _ => exact .kept _

/-- An allocation records the stack pointer it leaves behind. -/
theorem StackAllocates.frame (allocates : StackAllocates host vm)
    (stepped : vm.step host = .ok (result, final)) :
    ∃ size, size ≤ vm.state.sp ∧
      final.state.stackFrames =
        (vm.state.sp - size, size) :: vm.state.stackFrames := by
  obtain ⟨insn, reached, fetches, opcode, completed⟩ := allocates
  rw [completed] at stepped
  cases stepped
  have allocates : role insn.opcode = .stackAllocates := by
    rw [opcode, role]
  cases step_stepped completed with
  | resting halted =>
      rw [fetches.running] at halted
      cases halted
  | executed again transition =>
      rw [again.unique fetches] at transition
      cases transition with
      | stackAllocated _ _ _ fits => exact ⟨_, fits, rfl⟩
      | _ => cases allocates.symm.trans ‹role insn.opcode = _›

/-- A step that records a frame allocates it. -/
theorem stackAllocates_of_pushed {frame : Nat × Nat}
    (stepped : vm.step host = .ok (result, final))
    (pushed : final.state.stackFrames = frame :: vm.state.stackFrames) :
    StackAllocates host vm := by
  have deeper : final.state.stackFrames.length ≠
      vm.state.stackFrames.length := by
    rw [pushed, List.length_cons]
    omega
  cases step_stepped stepped with
  | resting | rejected | overrun => exact absurd rfl deeper
  | @executed insn _ fetches transition =>
      cases transition with
      | stackAllocated allocates =>
          exact ⟨insn, _, fetches,
            opcode_of_role (by rw [allocates, Role.soleOpcode]), stepped⟩
      | @stackFreed _ top frames _ _ _ stack =>
          have stack : vm.state.stackFrames = top :: frames := stack
          have pushed : frames = frame :: vm.state.stackFrames := pushed
          have lengths := congrArg List.length pushed
          simp only [stack, List.length_cons] at lengths
          omega
      | _ => exact absurd rfl deeper

/-- A release takes the last frame off and adds its size. -/
theorem StackReleases.frees (releases : StackReleases host vm) :
    ∃ top final, vm.Frees top ∧ vm.step host = .ok (.ok (), final) ∧
      vm.state.stackFrames = top :: final.state.stackFrames ∧
      final.state.sp = wrapSize (vm.state.sp + top.2) := by
  obtain ⟨insn, final, fetches, opcode, completed⟩ := releases
  have releases : role insn.opcode = .stackFrees := by
    rw [opcode, role]
  cases step_stepped completed with
  | resting halted =>
      rw [fetches.running] at halted
      cases halted
  | executed again transition =>
      rw [again.unique fetches] at transition
      cases transition with
      | stackFreed _ index stack base size =>
          exact ⟨_, _, ⟨fetches, opcode, stack, index, base, size⟩, completed,
            stack, rfl⟩
      | _ => cases releases.symm.trans ‹role insn.opcode = _›

theorem Frees.stackReleases {top : Nat × Nat} (frees : vm.Frees top) :
    StackReleases host vm := by
  obtain ⟨final, completed, pointer⟩ := @step_of_frees host vm top frees
  cases frees with
  | intro fetches opcode => exact ⟨_, final, fetches, opcode, completed⟩

/-- The recorded frame that a release takes off is unique. -/
theorem Frees.head {top : Nat × Nat} {frames : List (Nat × Nat)}
    (frees : vm.Frees top) (stack : vm.state.stackFrames = frames) :
    frames.head? = some top := by
  cases frees with
  | intro fetches opcode same =>
      rw [← stack, same]
      rfl

/-! ## The stack pointer is a word -/

/-- The pointer of a loaded machine is a machine word. -/
structure PointerFits (program : Program) (vm : Interpreter) : Prop
    extends Installed program vm where
  word : vm.state.sp < 2 ^ 64

theorem Loads.pointerFits (loads : Loads program vm) :
    PointerFits program vm := by
  have below := loads.stackBounded.below
  have small := program.length_lt
  exact ⟨loads.installed, by omega⟩

theorem PointerFits.step (fits : PointerFits program vm)
    (stepped : vm.step host = .ok (result, final)) :
    PointerFits program final := by
  refine ⟨fits.toInstalled.step stepped, ?_⟩
  have word := fits.word
  have limit := fits.toInstalled.stack_limit
  have small := program.length_lt
  cases step_stepped stepped with
  | resting | rejected | overrun => exact word
  | executed fetches transition =>
      cases transition with
      | pushed =>
          show vm.state.sp - 1 < 2 ^ 64
          omega
      | popped _ _ room =>
          have room : vm.state.sp < vm.state.layout.stack.limit := room
          show vm.state.sp + 1 < 2 ^ 64
          omega
      | stackAllocated =>
          show vm.state.sp - toSize _ < 2 ^ 64
          omega
      | stackFreed => exact Nat.mod_lt _ (by decide)
      | _ => exact word

theorem Loads.pointerFits_throughout (loads : Loads program loaded)
    {count : Nat} :
    Throughout (step host) loaded count (PointerFits program) :=
  throughout_of_before (PointerFits program) (fun _ => True)
    (fun _ _ _ fits _ stepped => fits.step stepped) loads.pointerFits
    (fun _ _ _ _ => trivial)

/-! ## Frames along a run -/

/-- The frames after a number of steps. -/
def frameHistory (host : Host) (loaded : Interpreter) (index : Nat) :
    List (Nat × Nat) :=
  match iterate (step host) index loaded with
  | .ok vm => vm.state.stackFrames
  | .error _ => []

variable {first last index count : Nat}

theorem frameHistory_eq (reached : iterate (step host) index loaded = .ok vm) :
    frameHistory host loaded index = vm.state.stackFrames := by
  simp only [frameHistory, reached]

/-- The states between are reached on the way. -/
theorem exists_reached (reached : iterate (step host) last loaded = .ok vm)
    (small : index ≤ last) :
    ∃ middle, iterate (step host) index loaded = .ok middle := by
  obtain ⟨more, rfl⟩ := Nat.exists_eq_add_of_le small
  obtain ⟨middle, earlier, _⟩ := iterate_add_eq_ok.mp reached
  exact ⟨middle, earlier⟩

theorem frameHistory_move (reached : iterate (step host) last loaded = .ok vm)
    (small : index < last) :
    Move (frameHistory host loaded index)
      (frameHistory host loaded (index + 1)) := by
  obtain ⟨middle, earlier⟩ := exists_reached reached (Nat.le_of_lt small)
  obtain ⟨result, next, stepped, later⟩ := step_of_before reached small earlier
  rw [frameHistory_eq earlier, frameHistory_eq later]
  exact frames_move stepped

/-- The released frame is the allocated one. -/
theorem FramePair.frame (pair : FramePair host loaded before popping first last) :
    ∃ size, size ≤ before.state.sp ∧
      popping.state.stackFrames =
        (before.state.sp - size, size) :: before.state.stackFrames := by
  obtain ⟨result, next, stepped, later⟩ :=
    step_of_before pair.stop pair.order pair.start
  obtain ⟨size, fits, recorded⟩ := pair.allocates.frame stepped
  refine ⟨size, fits, ?_⟩
  have suffix : (before.state.sp - size, size) :: before.state.stackFrames <:+
      frameHistory host loaded last := by
    have order : first + 1 ≤ last := pair.order
    apply suffix_of_deep order
    · intro index _ small
      exact frameHistory_move pair.stop small
    · intro index after bounded
      obtain ⟨middle, reached⟩ := exists_reached pair.stop bounded
      rw [frameHistory_eq reached]
      exact pair.deep index middle after bounded reached
    · have there := frameHistory_eq later
      exact (there.trans recorded) ▸ List.suffix_rfl
  rw [frameHistory_eq pair.stop] at suffix
  exact (suffix.eq_of_length pair.top.symm).symm

/-- The release of a frame restores the stack pointer when it finds it at the
base of the frame. -/
theorem FramePair.restores_iff
    (pair : FramePair host loaded before popping first last)
    (start : before.state.sp < 2 ^ 64) (stop : popping.state.sp < 2 ^ 64) :
    Restores host before popping ↔ FreesAtBase popping := by
  obtain ⟨size, fits, recorded⟩ := pair.frame
  obtain ⟨top, final, frees, completed, stack, pointer⟩ := pair.releases.frees
  rw [recorded] at stack
  injection stack with sameTop sameFrames
  have size_eq : top.2 = size := by rw [← sameTop]
  have base_eq : top.1 = before.state.sp - size := by rw [← sameTop]
  have restored : final.state.sp = before.state.sp ↔
      popping.state.sp = top.1 := by
    rw [pointer, wrapSize, size_eq, base_eq]
    omega
  constructor
  · intro restores other otherFrees
    obtain ⟨reached, again, same, _⟩ := restores
    rw [completed] at again
    cases again
    have head := frees.head rfl
    rw [otherFrees.head rfl] at head
    cases head
    exact restored.mp same
  · intro atBase
    exact ⟨final, completed, restored.mpr (atBase top frees), sameFrames.symm⟩

/-- A release takes off a frame that an earlier step of the run allocated. -/
theorem exists_framePair (loads : Loads program loaded)
    (reached : iterate (step host) last loaded = .ok popping)
    (releases : StackReleases host popping) :
    ∃ before first, FramePair host loaded before popping first last := by
  obtain ⟨top, final, frees, completed, stack, pointer⟩ := releases.frees
  have empty : frameHistory host loaded 0 = [] := by
    obtain ⟨policy, same⟩ := loads.state_eq
    rw [frameHistory_eq rfl, same]
    rfl
  have whole : top :: final.state.stackFrames <:+
      frameHistory host loaded last := by
    have there := frameHistory_eq reached
    exact (there.trans stack) ▸ List.suffix_rfl
  obtain ⟨first, pushed⟩ := exists_pushedAt empty
    (fun index small => frameHistory_move reached small) whole
  obtain ⟨before, start⟩ := exists_reached reached (Nat.le_of_lt pushed.order)
  obtain ⟨result, next, stepped, later⟩ :=
    step_of_before reached pushed.order start
  have below := pushed.before
  have recorded := pushed.after
  rw [frameHistory_eq start] at below
  rw [frameHistory_eq later] at recorded
  refine ⟨before, first, start, reached, pushed.order, ?_, releases, ?_, ?_⟩
  · rw [← below] at recorded
    exact stackAllocates_of_pushed stepped recorded
  · intro index vm after bounded there
    rw [below, ← frameHistory_eq there]
    exact pushed.deep index after bounded
  · rw [below, stack, List.length_cons]

/-- Every release among the first `count` steps restores the stack pointer
and the frames from before the allocation of its frame. -/
def FramesRestored (host : Host) (loaded : Interpreter) (count : Nat) : Prop :=
  ∀ first last before popping, last < count →
    FramePair host loaded before popping first last →
      Restores host before popping

/-- In a guest run every release of a frame restores the stack pointer and
the frames exactly when every release finds the pointer at the base of the
frame it takes off. -/
theorem framesRestored_iff {calls : List Call} {replies : List Reply}
    (loads : Loads program loaded) (guest : ∀ call ∈ calls, call.guest)
    (finished : run (call host) calls loaded = .ok (replies, vm)) :
    ∃ count, iterate (step host) count loaded = .ok vm ∧
      (FramesRestored host loaded count ↔
        Before (step host) loaded count FreesAtBase) := by
  obtain ⟨count, reached⟩ := run_guest_iterate guest finished
  have words : Throughout (step host) loaded count (PointerFits program) :=
    loads.pointerFits_throughout
  refine ⟨count, reached, ?_, ?_⟩
  · intro restored index small popping there top frees
    have releases : StackReleases host popping := frees.stackReleases
    obtain ⟨before, first, pair⟩ := exists_framePair loads there releases
    have order := pair.order
    have start := words first (by omega) before pair.start
    have stop := words index (by omega) popping there
    have restores := restored first index before popping small pair
    exact (pair.restores_iff start.word stop.word).mp restores top frees
  · intro atBase first last before popping small pair
    have order := pair.order
    have start := words first (by omega) before pair.start
    have stop := words last (by omega) popping pair.stop
    exact (pair.restores_iff start.word stop.word).mpr
      (atBase last small popping pair.stop)

/-- A frame of one cell that is popped before it is released. -/
def popInsideFrame : Program where
  insns := [
    { opcode := .stackAlloc, a := 0, b := 1, c := 0 },
    { opcode := .pop, a := 1, b := 0, c := 0 },
    { opcode := .stackFree, a := 0, b := 1, c := 0 }]
  axionPolicyText := []
  fits := by decide

/-- The program is run up to its release. -/
theorem framesRestored_iff_popInsideFrame :
    ∃ replies vm, run (call strictHost) [.step, .runToHalt 2]
        (freshlyLoaded popInsideFrame) = .ok (replies, vm) ∧
      ∃ count, iterate (step strictHost) count
          (freshlyLoaded popInsideFrame) = .ok vm ∧
        (FramesRestored strictHost (freshlyLoaded popInsideFrame) count ↔
          Before (step strictHost) (freshlyLoaded popInsideFrame) count
            FreesAtBase) := by
  have finished : run (call strictHost) [.step, .runToHalt 2]
      (freshlyLoaded popInsideFrame) = .ok (_, _) := rfl
  exact ⟨_, _, finished, framesRestored_iff (loads_freshlyLoaded rfl)
    (by simp [Call.guest]) finished⟩

/-- The release of an accepted program with all operands in range leaves the
stack pointer one cell above where the allocation found it. -/
theorem not_framesRestored_popInsideFrame :
    ¬ ∀ host program, validateProgram program = none → WellFormed program →
      ∀ loaded count, Loads program loaded →
        (∃ vm, iterate (step host) count loaded = .ok vm) →
          FramesRestored host loaded count := by
  intro restored
  have accepted : validateProgram popInsideFrame = none := rfl
  have wellFormed : WellFormed popInsideFrame :=
    wellFormed_iff.mpr ⟨validateProgram_eq_none_iff_otherwise.mp accepted,
      by unfold ConversionsInRange; decide⟩
  obtain ⟨popping, final, reached, completed, fetches, pointer, frames⟩ :
      ∃ popping final,
        iterate (step strictHost) 2 (freshlyLoaded popInsideFrame) =
          .ok popping ∧
        popping.step strictHost = .ok (.ok (), final) ∧
        popping.Fetches { opcode := .stackFree, a := 0, b := 1, c := 0 } ∧
        final.state.sp = 260 ∧ popping.state.stackFrames.length = 1 :=
    ⟨_, _, rfl, rfl, ⟨rfl, rfl, rfl⟩, rfl, rfl⟩
  obtain ⟨middle, allocated, between⟩ : ∃ middle,
      iterate (step strictHost) 1 (freshlyLoaded popInsideFrame) =
        .ok middle ∧ middle.state.stackFrames.length = 1 :=
    ⟨_, rfl, rfl⟩
  have pair : FramePair strictHost (freshlyLoaded popInsideFrame)
      (freshlyLoaded popInsideFrame) popping 0 2 := by
    refine ⟨rfl, reached, by decide, ?_, ⟨_, final, fetches, rfl, completed⟩,
      ?_, frames⟩
    · exact ⟨{ opcode := .stackAlloc, a := 0, b := 1, c := 0 }, _,
        ⟨rfl, rfl, rfl⟩, rfl, rfl⟩
    · intro index vm after bounded there
      show 0 < vm.state.stackFrames.length
      rcases (by omega : index = 1 ∨ index = 2) with one | two
      · rw [one, allocated] at there
        cases there
        omega
      · rw [two, reached] at there
        cases there
        omega
  obtain ⟨other, again, same, _⟩ := restored strictHost popInsideFrame accepted
    wellFormed _ 3 (loads_freshlyLoaded rfl) ⟨_, rfl⟩ 0 2 _ _ (by decide) pair
  rw [completed] at again
  cases again
  have pointerBefore : (freshlyLoaded popInsideFrame).state.sp = 259 := rfl
  omega

end Interpreter

end T81VM.VM
