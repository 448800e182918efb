import T81VM.VM.Faults
import T81VM.VM.Obstacle

/-!
# When an instruction ends in a decode fault

`DecodeFaults` is the exact condition, on the object before the step, under
which an instruction that returns raises `DecodeFault`.  Opcodes that share a
guard of the source share a lemma here.
-/

namespace T81VM.VM

open Tisc

/-- An outcome that returns raises `code` exactly under a guard. -/
def RaisesIff (code : Trap) (guard : Prop) (outcome : Outcome) : Prop :=
  ∀ result final, outcome = .ok (result, final) →
    (result = .error code ↔ guard)

namespace RaisesIff

variable {code : Trap} {guard : Prop} {vm : Interpreter}

theorem done (unguarded : ¬ guard) :
    RaisesIff code guard (.ok (.ok (), vm)) := by
  intro result final same
  cases same
  exact iff_of_false (by simp) unguarded

theorem raised {opcode : Opcode} {pc : Nat} {segment : MemorySegmentKind}
    {detail : Text} (guarded : guard) :
    RaisesIff code guard (.ok (vm.trap code opcode pc segment detail)) := by
  intro result final same
  cases same
  exact iff_of_true rfl guarded

theorem other {raised : Trap} {opcode : Opcode} {pc : Nat}
    {segment : MemorySegmentKind} {detail : Text} (distinct : raised ≠ code)
    (unguarded : ¬ guard) :
    RaisesIff code guard (.ok (vm.trap raised opcode pc segment detail)) := by
  intro result final same
  cases same
  refine iff_of_false (fun same => distinct ?_) unguarded
  exact Except.error.inj same

theorem of_faultsOnly {codes : List Trap} {outcome : Outcome}
    (faults : FaultsOnly codes outcome) (unlisted : code ∉ codes)
    (unguarded : ¬ guard) : RaisesIff code guard outcome := by
  intro result final returned
  refine iff_of_false (fun raised => unlisted ?_) unguarded
  rw [raised] at returned
  exact faults code final returned

theorem bind {α : Type} {read : Except Stuck α} {next : α → Outcome}
    (rest : ∀ value, read = .ok value → RaisesIff code guard (next value)) :
    RaisesIff code guard (read >>= next) := by
  intro result final returned
  obtain ⟨value, succeeded, later⟩ := bind_eq_ok.mp returned
  exact rest value succeeded result final later

theorem ite {condition : Prop} [Decidable condition] {yes no : Outcome}
    (positive : condition → RaisesIff code guard yes)
    (negative : ¬ condition → RaisesIff code guard no) :
    RaisesIff code guard (if condition then yes else no) := by
  by_cases holds : condition
  · rw [if_pos holds]
    exact positive holds
  · rw [if_neg holds]
    exact negative holds

end RaisesIff

namespace Interpreter

variable {host : Host} {vm : Interpreter} {insn : Insn} {pc : Nat}

/-- Operand `b` carries a tag whose handle denotes no usable entry. -/
def HandleRefused (vm : Interpreter) (insn : Insn) (tag : ValueTag)
    (usable : Int64 → Prop) : Prop :=
  vm.tagIs insn.b tag = .ok true ∧
    ∀ handle, vm.register insn.b = .ok handle → ¬ usable handle

/-- The entry a lookup finds meets a condition. -/
def Found {α : Type} (lookup : Int64 → Option α) (fits : α → Prop)
    (handle : Int64) : Prop :=
  ∃ entry, lookup handle = some entry ∧ fits entry

/-- Writing the destination never traps. -/
theorem finishWrite_raises {code : Trap} {guard : Prop} {value : Int64}
    {tag : ValueTag} (unguarded : ¬ guard) :
    RaisesIff code guard (vm.finishWrite insn pc value tag) := by
  have silent : FaultsOnly [] (vm.finishWrite insn pc value tag) :=
    finishWrite_faults
  exact .of_faultsOnly silent List.not_mem_nil unguarded

/-- The top heap frame is the one the instruction releases. -/
def ReleasesTop (vm : Interpreter) (insn : Insn) : Prop :=
  ∃ top frames base, vm.state.heapFrames = top :: frames ∧
    vm.register insn.a = .ok base ∧
    toSize base = top.1 ∧ requestedSize insn.b = top.2

/-- The guards of the source that end in a decode fault. -/
def DecodeFaults (vm : Interpreter) (insn : Insn) : Prop :=
  match insn.opcode with
  | .undefined _ => True
  | .jump | .jumpIfZero | .jumpIfNotZero | .jumpIfNegative
  | .jumpIfPositive =>
      jumpTaken vm.state.flags insn.opcode = true ∧
        ¬ validTarget vm.program.insns.length insn.a = true
  | .call => ∃ target, vm.register insn.a = .ok target ∧
      ¬ validTarget vm.program.insns.length target = true
  | .heapAlloc => insn.b ≤ 0
  | .heapFree => ¬ vm.ReleasesTop insn
  | .makeEnumVariantPayload => insn.c < 0
  | .tVecAdd | .tMatMul | .tTenDot | .tVecMul =>
      vm.tagsAre insn .tensorHandle .tensorHandle = .ok true ∧
        (vm.tensorOf insn.b = none ∨ vm.tensorOf insn.c = none)
  | .tTranspose | .tExp | .tSqrt | .tSiLU | .tSoftmax | .tRMSNorm
  | .tRoPE =>
      vm.tagIs insn.b .tensorHandle = .ok true ∧ vm.tensorOf insn.b = none
  | .chkShape =>
      vm.tagsAre insn .tensorHandle .shapeHandle = .ok true ∧
        (vm.tensorOf insn.b = none ∨
          ∀ handle, vm.register insn.c = .ok handle →
            vm.shapePtr handle = none)
  | .optionIsSome =>
      vm.HandleRefused insn .optionHandle (Found vm.optionPtr fun _ => True)
  | .optionUnwrap =>
      vm.HandleRefused insn .optionHandle
        (Found vm.optionPtr fun entry => entry.hasValue = true)
  | .resultIsOk =>
      vm.HandleRefused insn .resultHandle (Found vm.resultPtr fun _ => True)
  | .resultUnwrapOk =>
      vm.HandleRefused insn .resultHandle
        (Found vm.resultPtr fun entry => entry.isOk = true)
  | .resultUnwrapErr =>
      vm.HandleRefused insn .resultHandle
        (Found vm.resultPtr fun entry => entry.isOk = false)
  | .enumIsVariant =>
      vm.HandleRefused insn .enumHandle (Found vm.enumPtr fun _ => True)
  | .enumUnwrapPayload =>
      vm.HandleRefused insn .enumHandle
        (Found vm.enumPtr fun entry => entry.hasPayload = true)
  | _ => False

/-! ## Branches that decide by a target or a frame -/

theorem checkJumpTarget_raises {guard : Prop} {target : Int64}
    (exact : ¬ validTarget vm.program.insns.length target = true ↔ guard) :
    RaisesIff .decodeFault guard (vm.checkJumpTarget insn pc target) := by
  apply RaisesIff.ite
  · intro leaves
    refine .raised (exact.mp fun valid => ?_)
    exact not_leaves_iff.mpr (validTarget_iff.mp valid) leaves
  · intro stays
    refine .done fun guarded => exact.mpr guarded ?_
    exact validTarget_iff.mpr (not_leaves_iff.mp stays)

theorem executeJumpIf_raises {condition : Bool} :
    RaisesIff .decodeFault
      (condition = true ∧
        ¬ validTarget vm.program.insns.length insn.a = true)
      (vm.executeJumpIf insn pc condition) := by
  apply RaisesIff.ite
  · intro taken
    exact checkJumpTarget_raises (by simp [taken])
  · intro untaken
    exact .done fun guarded => untaken guarded.1

theorem executeCall_raises :
    RaisesIff .decodeFault
      (∃ target, vm.register insn.a = .ok target ∧
        ¬ validTarget vm.program.insns.length target = true)
      (vm.executeCall insn pc) := by
  refine .bind fun target read => .ite (fun leaves => ?_) fun stays => ?_
  · refine .raised ⟨target, read, fun valid => ?_⟩
    exact not_leaves_iff.mpr (validTarget_iff.mp valid) leaves
  · refine .done fun guarded => ?_
    obtain ⟨other, again, invalid⟩ := guarded
    rw [read] at again
    cases again
    exact invalid (validTarget_iff.mpr (not_leaves_iff.mp stays))

theorem executeMakeEnumVariantPayload_raises :
    RaisesIff .decodeFault (insn.c < 0)
      (vm.executeMakeEnumVariantPayload insn pc) := by
  apply RaisesIff.ite
  · intro negative
    exact .raised negative
  · intro nonneg
    exact .bind fun _ _ => .bind fun _ _ =>
      finishWrite_raises nonneg

theorem executeHeapAlloc_raises :
    RaisesIff .decodeFault (insn.b ≤ 0) (vm.executeHeapAlloc insn pc) := by
  apply RaisesIff.ite
  · intro small
    exact .raised small
  · intro positive
    refine .ite (fun _ => .other (by decide) positive) fun _ => ?_
    exact .bind fun _ _ => .done positive

theorem executeHeapFree_raises :
    RaisesIff .decodeFault (¬ vm.ReleasesTop insn)
      (vm.executeHeapFree insn pc) := by
  unfold executeHeapFree
  cases heap : vm.state.heapFrames with
  | nil =>
      refine .raised fun releases => ?_
      obtain ⟨top, frames, base, nonempty, _⟩ := releases
      rw [heap] at nonempty
      cases nonempty
  | cons top frames =>
      refine .bind fun base read => .ite (fun mismatch => ?_) fun same => ?_
      · refine .raised fun releases => ?_
        obtain ⟨first, rest, value, nonempty, again, bases, sizes⟩ :=
          releases
        rw [heap] at nonempty
        rw [read] at again
        cases nonempty
        cases again
        rcases mismatch with other | other
        · exact other bases
        · exact other sizes
      · obtain ⟨bases, sizes⟩ := not_or.mp same
        refine .done fun guarded => guarded ?_
        exact ⟨top, frames, base, heap, read, not_not.mp bases,
          not_not.mp sizes⟩

/-! ## Branches over tagged operands -/

theorem withHandle_raises {α : Type} {tag : ValueTag}
    {lookup : Int64 → Option α} {inspect : α → Option (Int64 × ValueTag)}
    {fits : α → Prop} (exact : ∀ entry, fits entry ↔ inspect entry ≠ none) :
    RaisesIff .decodeFault (vm.HandleRefused insn tag (Found lookup fits))
      (vm.withHandle insn pc tag lookup inspect) := by
  refine .bind fun tagged tags => ?_
  cases tagged with
  | false =>
      refine .other (by decide) fun refused => ?_
      rw [refused.1] at tags
      cases tags
  | true =>
      refine .bind fun handle read => ?_
      cases result : (lookup handle).bind inspect with
      | some written =>
          refine finishWrite_raises fun refused => ?_
          obtain ⟨entry, found, inspected⟩ := Option.bind_eq_some_iff.mp result
          refine refused.2 handle read ⟨entry, found, (exact entry).mpr ?_⟩
          simp [inspected]
      | none =>
          refine .raised ⟨tags, fun other again usable => ?_⟩
          rw [read] at again
          cases again
          obtain ⟨entry, found, fit⟩ := usable
          rw [found, Option.bind_some] at result
          exact (exact entry).mp fit result

/-- The tensor behind an operand that was read. -/
theorem tensorOf_of_read {idx handle : Int64}
    (read : vm.register idx = .ok handle) :
    vm.tensorOf idx = vm.tensorPtr handle := by
  rw [tensorOf, read]

theorem withTensorPair_raises
    {compute : TensorValue → TensorValue → Outcome}
    (computes : ∀ lhs rhs, FaultsOnly [.shapeFault] (compute lhs rhs)) :
    RaisesIff .decodeFault
      (vm.tagsAre insn .tensorHandle .tensorHandle = .ok true ∧
        (vm.tensorOf insn.b = none ∨ vm.tensorOf insn.c = none))
      (vm.withTensorPair insn pc compute) := by
  refine .bind fun tagged tags => ?_
  cases tagged with
  | false =>
      refine .other (by decide) fun refused => ?_
      rw [refused.1] at tags
      cases tags
  | true =>
      refine .bind fun lhs left => .bind fun rhs right => ?_
      rw [tensorOf_of_read left, tensorOf_of_read right]
      cases first : vm.tensorPtr lhs with
      | none => exact .raised ⟨tags, .inl rfl⟩
      | some lhs =>
          cases second : vm.tensorPtr rhs with
          | none => exact .raised ⟨tags, .inr rfl⟩
          | some rhs =>
              exact .of_faultsOnly (computes lhs rhs) (by decide) (by simp)

theorem withTensor_raises {compute : TensorValue → Outcome}
    (computes : ∀ input, FaultsOnly [.shapeFault] (compute input)) :
    RaisesIff .decodeFault
      (vm.tagIs insn.b .tensorHandle = .ok true ∧
        vm.tensorOf insn.b = none)
      (vm.withTensor insn pc compute) := by
  refine .bind fun tagged tags => ?_
  cases tagged with
  | false =>
      refine .other (by decide) fun refused => ?_
      rw [refused.1] at tags
      cases tags
  | true =>
      refine .bind fun handle read => ?_
      rw [tensorOf_of_read read]
      cases found : vm.tensorPtr handle with
      | none => exact .raised ⟨tags, rfl⟩
      | some input =>
          exact .of_faultsOnly (computes input) (by decide) (by simp)

theorem executeVector_raises :
    RaisesIff .decodeFault
      (vm.tagsAre insn .tensorHandle .tensorHandle = .ok true ∧
        (vm.tensorOf insn.b = none ∨ vm.tensorOf insn.c = none))
      (vm.executeVector host insn pc) :=
  withTensorPair_raises fun _ _ =>
    .ite (fun _ => .trap (by decide)) fun _ =>
      .bind fun _ _ => finishTensor_faults

theorem executeTMatMul_raises :
    RaisesIff .decodeFault
      (vm.tagsAre insn .tensorHandle .tensorHandle = .ok true ∧
        (vm.tensorOf insn.b = none ∨ vm.tensorOf insn.c = none))
      (vm.executeTMatMul host insn pc) := by
  refine withTensorPair_raises fun lhs rhs => ?_
  split
  · exact .ite (fun _ => .trap (by decide)) fun _ =>
      .bind fun _ _ => finishTensor_faults
  · exact .trap (by decide)

theorem executeTTenDot_raises :
    RaisesIff .decodeFault
      (vm.tagsAre insn .tensorHandle .tensorHandle = .ok true ∧
        (vm.tensorOf insn.b = none ∨ vm.tensorOf insn.c = none))
      (vm.executeTTenDot host insn pc) :=
  withTensorPair_raises fun _ _ =>
    .ite (fun _ => .trap (by decide)) fun _ =>
      .bind fun _ _ => finishTensor_faults

theorem executeTTranspose_raises :
    RaisesIff .decodeFault
      (vm.tagIs insn.b .tensorHandle = .ok true ∧
        vm.tensorOf insn.b = none)
      (vm.executeTTranspose insn pc) := by
  refine withTensor_raises fun input => ?_
  split
  · exact .ite (fun _ => .trap (by decide)) fun _ =>
      .bind fun _ _ => finishTensor_faults
  · exact .trap (by decide)

theorem executeActivation_raises :
    RaisesIff .decodeFault
      (vm.tagIs insn.b .tensorHandle = .ok true ∧
        vm.tensorOf insn.b = none)
      (vm.executeActivation host insn pc) := by
  refine withTensor_raises fun input => .bind fun out _ => ?_
  cases out with
  | none => exact .trap (by decide)
  | some out => exact finishTensor_faults

theorem executeChkShape_raises :
    RaisesIff .decodeFault
      (vm.tagsAre insn .tensorHandle .shapeHandle = .ok true ∧
        (vm.tensorOf insn.b = none ∨
          ∀ handle, vm.register insn.c = .ok handle →
            vm.shapePtr handle = none))
      (vm.executeChkShape insn pc) := by
  refine .bind fun tagged tags => ?_
  cases tagged with
  | false =>
      refine .other (by decide) fun refused => ?_
      rw [refused.1] at tags
      cases tags
  | true =>
      refine .bind fun tensor left => .bind fun shape right => ?_
      rw [tensorOf_of_read left]
      have only : (∀ handle, vm.register insn.c = .ok handle →
          vm.shapePtr handle = none) ↔ vm.shapePtr shape = none := by
        simp [right]
      rw [only]
      cases first : vm.tensorPtr tensor with
      | none => exact .raised ⟨tags, .inl rfl⟩
      | some tensor =>
          cases second : vm.shapePtr shape with
          | none => exact .raised ⟨tags, .inr rfl⟩
          | some shape =>
              exact finishWrite_raises (by simp)

/-! ## The switch -/

/-- An instruction that returns raises a decode fault exactly under the
guards of its opcode. -/
theorem execute_raises :
    RaisesIff .decodeFault (vm.DecodeFaults insn)
      (vm.execute host insn pc) := by
  by_cases listed : Trap.decodeFault ∈ faultCodes insn.opcode
  · unfold execute DecodeFaults
    cases opcode : insn.opcode <;> rw [opcode] at listed
    case undefined => exact .raised trivial
    case jump =>
      exact checkJumpTarget_raises (by simp [jumpTaken])
    case jumpIfZero | jumpIfNotZero | jumpIfNegative | jumpIfPositive =>
      exact executeJumpIf_raises
    case call => exact executeCall_raises
    case heapAlloc => exact executeHeapAlloc_raises
    case heapFree => exact executeHeapFree_raises
    case makeEnumVariantPayload =>
      exact executeMakeEnumVariantPayload_raises
    case tVecAdd | tVecMul => exact executeVector_raises
    case tMatMul => exact executeTMatMul_raises
    case tTenDot => exact executeTTenDot_raises
    case tTranspose => exact executeTTranspose_raises
    case tExp | tSqrt | tSiLU | tSoftmax | tRMSNorm | tRoPE =>
      exact executeActivation_raises
    case chkShape => exact executeChkShape_raises
    case optionIsSome | resultIsOk | enumIsVariant =>
      exact withHandle_raises (by simp)
    case optionUnwrap | resultUnwrapOk | enumUnwrapPayload =>
      exact withHandle_raises fun entry => by split <;> simp_all
    case resultUnwrapErr =>
      exact withHandle_raises fun entry => by split <;> simp_all
    all_goals exact absurd listed (by decide)
  · apply RaisesIff.of_faultsOnly execute_faultCodes listed
    intro guarded
    unfold DecodeFaults at guarded
    cases opcode : insn.opcode <;> rw [opcode] at listed guarded <;>
      first
      | exact guarded
      | exact listed (by decide)
      | exact listed (List.mem_singleton_self _)

/-! ## The step -/

/-- The next step raises a decode fault: as the verdict of the loader, past
the last instruction, or under a guard of the instruction it fetches. -/
def StepDecodeFaults (vm : Interpreter) : Prop :=
  vm.state.halted = false ∧
    match vm.preloadTrap with
    | some code => code = .decodeFault
    | none =>
        vm.program.insns[vm.state.pc]? = none ∨
          ∃ insn, vm.Fetches insn ∧ vm.DecodeFaults insn

theorem decodeFaults_beginInsn :
    vm.beginInsn.DecodeFaults insn ↔ vm.DecodeFaults insn := Iff.rfl

theorem step_raises :
    RaisesIff .decodeFault vm.StepDecodeFaults (vm.step host) := by
  intro result final stepped
  cases step_stepped stepped with
  | resting halted =>
      refine iff_of_false (by simp) fun faults => ?_
      have running := faults.1
      rw [halted] at running
      cases running
  | @rejected code running preload =>
      simp only [StepDecodeFaults, running, preload, true_and]
      constructor
      · intro same
        exact Except.error.inj same
      · intro same
        exact congrArg Except.error same
  | overrun running accepted past =>
      refine iff_of_true rfl ⟨running, ?_⟩
      rw [accepted]
      exact .inl past
  | @executed insn _ fetches transition =>
      have executed := stepped
      rw [step_of_fetches fetches] at executed
      rw [execute_raises result final executed, decodeFaults_beginInsn]
      constructor
      · intro faults
        refine ⟨fetches.running, ?_⟩
        rw [fetches.accepted]
        exact .inr ⟨insn, fetches, faults⟩
      · intro faults
        have guarded := faults.2
        rw [fetches.accepted] at guarded
        rcases guarded with past | ⟨other, again, faults⟩
        · rw [fetches.fetched] at past
          cases past
        · rw [fetches.unique again]
          exact faults

end Interpreter

end T81VM.VM
