import T81VM.VM.Dispatch

/-!
# The trap codes of an instruction

`faultCodes` lists the codes an opcode can trap with.
-/

namespace T81VM.VM

open Tisc

/-- The codes an opcode can trap with. -/
def faultCodes : Opcode → List Trap
  | .load | .store => [.boundsFault]
  | .div | .mod | .fDiv | .fracDiv => [.divisionFault]
  | .push | .pop | .ret | .stackAlloc | .stackFree => [.stackFault]
  | .jump | .jumpIfZero | .jumpIfNotZero | .jumpIfNegative
  | .jumpIfPositive | .call | .makeEnumVariantPayload
  | .heapFree | .undefined _ => [.decodeFault]
  | .trap => [.trapInstruction]
  | .axRead | .axSet | .axVerify => [.securityFault]
  | .tVecAdd | .tMatMul | .tTenDot | .tVecMul | .tTranspose
  | .tExp | .tSqrt | .tSiLU | .tSoftmax | .tRMSNorm | .tRoPE =>
      [.typeFault, .decodeFault, .shapeFault]
  | .chkShape
  | .optionIsSome | .optionUnwrap
  | .resultIsOk | .resultUnwrapOk | .resultUnwrapErr
  | .enumIsVariant | .enumUnwrapPayload => [.typeFault, .decodeFault]
  | .heapAlloc => [.decodeFault, .boundsFault]
  | _ => []

/-- The computation traps with one of the given codes, if at all. -/
def FaultsOnly (codes : List Trap) (outcome : Outcome) : Prop :=
  ∀ code final, outcome = .ok (.error code, final) → code ∈ codes

namespace FaultsOnly

variable {codes : List Trap} {vm : Interpreter}

theorem done : FaultsOnly codes (.ok (.ok (), vm)) := by
  intro code final same
  cases same

theorem trap {code : Trap} {opcode : Opcode} {pc : Nat}
    {segment : MemorySegmentKind} {detail : Text} (listed : code ∈ codes) :
    FaultsOnly codes (.ok (vm.trap code opcode pc segment detail)) := by
  intro other final same
  cases same
  exact listed

theorem bind {α : Type} {read : Except Stuck α} {next : α → Outcome}
    (rest : ∀ value, read = .ok value → FaultsOnly codes (next value)) :
    FaultsOnly codes (read >>= next) := by
  intro code final faulted
  obtain ⟨value, succeeded, later⟩ := bind_eq_ok.mp faulted
  exact rest value succeeded code final later

theorem ite {condition : Prop} [Decidable condition] {yes no : Outcome}
    (positive : condition → FaultsOnly codes yes)
    (negative : ¬ condition → FaultsOnly codes no) :
    FaultsOnly codes (if condition then yes else no) := by
  split
  · rename_i holds
    exact positive holds
  · rename_i fails
    exact negative fails

end FaultsOnly

namespace Interpreter

variable {host : Host} {vm : Interpreter} {insn : Insn} {pc : Nat}
  {codes : List Trap}

/-! ## Branches that never trap -/

theorem finishWrite_faults {value : Int64} {tag : ValueTag} :
    FaultsOnly codes (vm.finishWrite insn pc value tag) :=
  .bind fun _ _ => .bind fun _ _ => .done

theorem executeLoadImm_faults : FaultsOnly codes (vm.executeLoadImm insn pc) :=
  .bind fun _ _ => .done

theorem executeMove_faults : FaultsOnly codes (vm.executeMove insn pc) :=
  .bind fun _ _ => .bind fun _ _ => finishWrite_faults

theorem executeBump_faults {op : Int64 → SignedOp} :
    FaultsOnly codes (vm.executeBump host insn pc op) :=
  .bind fun _ _ => .bind fun _ _ => .bind fun _ _ => .done

theorem executeCmp_faults : FaultsOnly codes (vm.executeCmp host insn pc) :=
  .bind fun _ _ => .bind fun _ _ => .bind fun _ _ => .done

theorem executeNeg_faults : FaultsOnly codes (vm.executeNeg host insn pc) :=
  .bind fun _ _ => .bind fun _ _ => finishWrite_faults

theorem executeTNot_faults : FaultsOnly codes (vm.executeTNot host insn pc) :=
  .bind fun _ _ => .bind fun _ _ => finishWrite_faults

theorem executeTrit_faults : FaultsOnly codes (vm.executeTrit host insn pc) :=
  .bind fun _ _ => .bind fun _ _ => .bind fun _ _ => finishWrite_faults

theorem executeCompare_faults : FaultsOnly codes (vm.executeCompare insn pc) :=
  .bind fun _ _ => .bind fun _ _ => finishWrite_faults

theorem executeSetF_faults : FaultsOnly codes (vm.executeSetF insn pc) :=
  .bind fun _ _ => finishWrite_faults

theorem executeWeightsLoad_faults :
    FaultsOnly codes (vm.executeWeightsLoad host insn pc) :=
  .bind fun _ _ => .bind fun _ _ => .bind fun _ _ => .done

theorem executeMakeOptionSome_faults :
    FaultsOnly codes (vm.executeMakeOptionSome insn pc) :=
  .bind fun _ _ => .bind fun _ _ => finishWrite_faults

theorem executeMakeOptionNone_faults :
    FaultsOnly codes (vm.executeMakeOptionNone insn pc) :=
  .bind fun _ _ => finishWrite_faults

theorem executeMakeResult_faults {isOk : Bool} :
    FaultsOnly codes (vm.executeMakeResult insn pc isOk) :=
  .bind fun _ _ => .bind fun _ _ => finishWrite_faults

theorem executeMakeEnumVariant_faults :
    FaultsOnly codes (vm.executeMakeEnumVariant insn pc) :=
  .bind fun _ _ => finishWrite_faults

/-! ## Branches with guards -/

theorem executeLoad_faults (listed : .boundsFault ∈ codes) :
    FaultsOnly codes (vm.executeLoad insn pc) :=
  .ite (fun _ => .trap listed) fun _ => .bind fun _ _ => finishWrite_faults

theorem executeStore_faults (listed : .boundsFault ∈ codes) :
    FaultsOnly codes (vm.executeStore insn pc) :=
  .ite (fun _ => .trap listed) fun _ =>
    .bind fun _ _ => .bind fun _ _ => .done

/-- Only an opcode that divides traps on its operands. -/
theorem executeArithmetic_faults
    (listed : divides insn.opcode = true → .divisionFault ∈ codes) :
    FaultsOnly codes (vm.executeArithmetic host insn pc) := by
  refine .bind fun lhs _ => .bind fun rhs _ => .ite (fun zero => ?_) ?_
  · exact .trap (listed (Bool.and_eq_true_iff.mp zero).1)
  · exact fun _ => .bind fun _ _ => .bind fun _ _ => .done

theorem executePush_faults (listed : .stackFault ∈ codes) :
    FaultsOnly codes (vm.executePush insn pc) :=
  .bind fun outcome _ =>
    match outcome with
    | none => .trap listed
    | some _ => .done

theorem executePop_faults (listed : .stackFault ∈ codes) :
    FaultsOnly codes (vm.executePop insn pc) :=
  .bind fun outcome _ =>
    match outcome with
    | none => .trap listed
    | some _ => .bind fun _ _ => .done

theorem checkJumpTarget_faults {target : Int64}
    (listed : ¬ validTarget vm.program.insns.length target = true →
      .decodeFault ∈ codes) :
    FaultsOnly codes (vm.checkJumpTarget insn pc target) := by
  refine .ite (fun leaves => .trap (listed fun valid => ?_)) fun _ => .done
  exact not_leaves_iff.mpr (validTarget_iff.mp valid) leaves

theorem executeJumpIf_faults {condition : Bool}
    (listed : condition = true →
      ¬ validTarget vm.program.insns.length insn.a = true →
      .decodeFault ∈ codes) :
    FaultsOnly codes (vm.executeJumpIf insn pc condition) :=
  .ite (fun taken => checkJumpTarget_faults (listed taken)) fun _ => .done

theorem executeCall_faults
    (listed : ∀ target, vm.register insn.a = .ok target →
      ¬ validTarget vm.program.insns.length target = true →
      .decodeFault ∈ codes) :
    FaultsOnly codes (vm.executeCall insn pc) := by
  refine .bind fun target read => ?_
  refine .ite (fun leaves => .trap (listed target read fun valid => ?_))
    fun _ => .done
  exact not_leaves_iff.mpr (validTarget_iff.mp valid) leaves

theorem executeRet_faults (listed : .stackFault ∈ codes) :
    FaultsOnly codes (vm.executeRet insn pc) := by
  unfold executeRet
  split
  · exact .trap listed
  · exact .done

theorem executeAxRead_faults (listed : .securityFault ∈ codes) :
    FaultsOnly codes (vm.executeAxRead insn pc) :=
  .ite (fun _ => .trap listed) fun _ => finishWrite_faults

theorem executeAxSet_faults (listed : .securityFault ∈ codes) :
    FaultsOnly codes (vm.executeAxSet insn pc) :=
  .bind fun _ _ => .bind fun _ _ =>
    .ite (fun _ => .trap listed) fun _ => .done

theorem executeAxVerify_faults (listed : .securityFault ∈ codes) :
    FaultsOnly codes (vm.executeAxVerify insn pc) :=
  .ite (fun _ => .trap listed) fun _ => finishWrite_faults

theorem executeMakeEnumVariantPayload_faults
    (listed : insn.c < 0 → .decodeFault ∈ codes) :
    FaultsOnly codes (vm.executeMakeEnumVariantPayload insn pc) :=
  .ite (fun negative => .trap (listed negative)) fun _ =>
    .bind fun _ _ => .bind fun _ _ => finishWrite_faults

theorem executeStackAlloc_faults (listed : .stackFault ∈ codes) :
    FaultsOnly codes (vm.executeStackAlloc insn pc) :=
  .ite (fun _ => .trap listed) fun _ =>
    .ite (fun _ => .trap listed) fun _ => .bind fun _ _ => .done

theorem executeStackFree_faults (listed : .stackFault ∈ codes) :
    FaultsOnly codes (vm.executeStackFree insn pc) := by
  unfold executeStackFree
  split
  · exact .trap listed
  · exact .bind fun _ _ => .ite (fun _ => .trap listed) fun _ => .done

theorem executeHeapAlloc_faults (listed : insn.b ≤ 0 → .decodeFault ∈ codes)
    (bounds : .boundsFault ∈ codes) :
    FaultsOnly codes (vm.executeHeapAlloc insn pc) :=
  .ite (fun small => .trap (listed small)) fun _ =>
    .ite (fun _ => .trap bounds) fun _ => .bind fun _ _ => .done

theorem executeHeapFree_faults (listed : .decodeFault ∈ codes) :
    FaultsOnly codes (vm.executeHeapFree insn pc) := by
  unfold executeHeapFree
  split
  · exact .trap listed
  · exact .bind fun _ _ => .ite (fun _ => .trap listed) fun _ => .done

/-! ## Branches over tagged operands -/

theorem withHandle_faults {α : Type} {tag : ValueTag}
    {lookup : Int64 → Option α} {inspect : α → Option (Int64 × ValueTag)}
    (typed : .typeFault ∈ codes)
    (listed : vm.tagIs insn.b tag = .ok true → .decodeFault ∈ codes) :
    FaultsOnly codes (vm.withHandle insn pc tag lookup inspect) := by
  refine .bind fun tagged read => ?_
  cases tagged with
  | false => exact .trap typed
  | true =>
      refine .bind fun handle _ => ?_
      split
      · exact finishWrite_faults
      · exact .trap (listed read)

/-- The codes of a tensor opcode, whose operand `b` has to be a tensor. -/
structure TensorCodes (vm : Interpreter) (insn : Insn)
    (codes : List Trap) : Prop where
  typed : .typeFault ∈ codes
  decoded : vm.tagIs insn.b .tensorHandle = .ok true → .decodeFault ∈ codes
  shaped : .shapeFault ∈ codes

theorem tagsAre_left_eq {left right : ValueTag}
    (tagged : vm.tagsAre insn left right = .ok true) :
    vm.tagIs insn.b left = .ok true := by
  obtain ⟨fits, read, rest⟩ := bind_eq_ok.mp tagged
  cases fits with
  | true => exact read
  | false => cases rest

theorem finishTensor_faults {shape data : List Int64} :
    FaultsOnly codes (vm.finishTensor insn pc shape data) :=
  .bind fun _ _ => finishWrite_faults

theorem withTensorPair_faults {compute : TensorValue → TensorValue → Outcome}
    (listed : TensorCodes vm insn codes)
    (computes : .shapeFault ∈ codes → ∀ lhs rhs,
      FaultsOnly codes (compute lhs rhs)) :
    FaultsOnly codes (vm.withTensorPair insn pc compute) := by
  refine .bind fun tagged read => ?_
  cases tagged with
  | false => exact .trap listed.typed
  | true =>
      have left := tagsAre_left_eq read
      refine .bind fun lhs _ => .bind fun rhs _ => ?_
      split
      · exact computes listed.shaped _ _
      · exact .trap (listed.decoded left)

theorem withTensor_faults {compute : TensorValue → Outcome}
    (listed : TensorCodes vm insn codes)
    (computes : .shapeFault ∈ codes → ∀ input,
      FaultsOnly codes (compute input)) :
    FaultsOnly codes (vm.withTensor insn pc compute) := by
  refine .bind fun tagged read => ?_
  cases tagged with
  | false => exact .trap listed.typed
  | true =>
      refine .bind fun handle _ => ?_
      split
      · exact computes listed.shaped _
      · exact .trap (listed.decoded read)

theorem executeVector_faults (listed : TensorCodes vm insn codes) :
    FaultsOnly codes (vm.executeVector host insn pc) :=
  withTensorPair_faults listed fun shaped _ _ =>
    .ite (fun _ => .trap shaped) fun _ => .bind fun _ _ => finishTensor_faults

theorem executeTMatMul_faults (listed : TensorCodes vm insn codes) :
    FaultsOnly codes (vm.executeTMatMul host insn pc) := by
  refine withTensorPair_faults listed fun shaped lhs rhs => ?_
  split
  · exact .ite (fun _ => .trap shaped) fun _ =>
      .bind fun _ _ => finishTensor_faults
  · exact .trap shaped

theorem executeTTenDot_faults (listed : TensorCodes vm insn codes) :
    FaultsOnly codes (vm.executeTTenDot host insn pc) :=
  withTensorPair_faults listed fun shaped _ _ =>
    .ite (fun _ => .trap shaped) fun _ => .bind fun _ _ => finishTensor_faults

theorem executeTTranspose_faults (listed : TensorCodes vm insn codes) :
    FaultsOnly codes (vm.executeTTranspose insn pc) := by
  refine withTensor_faults listed fun shaped input => ?_
  split
  · exact .ite (fun _ => .trap shaped) fun _ =>
      .bind fun _ _ => finishTensor_faults
  · exact .trap shaped

theorem executeActivation_faults (listed : TensorCodes vm insn codes) :
    FaultsOnly codes (vm.executeActivation host insn pc) :=
  withTensor_faults listed fun shaped _ => .bind fun out _ =>
    match out with
    | none => .trap shaped
    | some _ => finishTensor_faults

theorem executeChkShape_faults (typed : .typeFault ∈ codes)
    (listed : vm.tagIs insn.b .tensorHandle = .ok true →
      .decodeFault ∈ codes) :
    FaultsOnly codes (vm.executeChkShape insn pc) := by
  refine .bind fun tagged read => ?_
  cases tagged with
  | false => exact .trap typed
  | true =>
      refine .bind fun tensor _ => .bind fun shape _ => ?_
      split
      · exact finishWrite_faults
      · exact .trap (listed (tagsAre_left_eq read))

/-! ## The switch -/

/-- The guards of an instruction that can end in a decode fault. -/
def MayDecodeFault (vm : Interpreter) (insn : Insn) : Prop :=
  match insn.opcode with
  | .undefined _ | .heapFree => True
  | .jump | .jumpIfZero | .jumpIfNotZero | .jumpIfNegative
  | .jumpIfPositive =>
      jumpTaken vm.state.flags insn.opcode = true ∧
        ¬ validTarget vm.program.insns.length insn.a = true
  | .call => ∃ target, vm.register insn.a = .ok target ∧
      ¬ validTarget vm.program.insns.length target = true
  | .makeEnumVariantPayload => insn.c < 0
  | .heapAlloc => insn.b ≤ 0
  | .tVecAdd | .tMatMul | .tTenDot | .tVecMul | .tTranspose
  | .tExp | .tSqrt | .tSiLU | .tSoftmax | .tRMSNorm | .tRoPE
  | .chkShape => vm.tagIs insn.b .tensorHandle = .ok true
  | .optionIsSome | .optionUnwrap => vm.tagIs insn.b .optionHandle = .ok true
  | .resultIsOk | .resultUnwrapOk | .resultUnwrapErr =>
      vm.tagIs insn.b .resultHandle = .ok true
  | .enumIsVariant | .enumUnwrapPayload =>
      vm.tagIs insn.b .enumHandle = .ok true
  | _ => False

/-- An instruction traps with the codes of its opcode, and with a decode
fault only past one of those guards. -/
theorem execute_faultsOnly
    (listed : ∀ code ∈ faultCodes insn.opcode, code ≠ .decodeFault →
      code ∈ codes)
    (decoded : vm.MayDecodeFault insn → .decodeFault ∈ codes) :
    FaultsOnly codes (vm.execute host insn pc) := by
  unfold execute
  unfold MayDecodeFault at decoded
  cases opcode : insn.opcode <;> rw [opcode] at listed decoded
  case nop | halt => exact .done
  case loadImm => exact executeLoadImm_faults
  case load =>
    exact executeLoad_faults (listed .boundsFault (by decide) (by decide))
  case store =>
    exact executeStore_faults (listed .boundsFault (by decide) (by decide))
  case add | sub | mul | fAdd | fSub | fMul | fracAdd | fracSub | fracMul
    =>
    exact executeArithmetic_faults (by simp [opcode, divides])
  case div | mod | fDiv | fracDiv =>
    exact executeArithmetic_faults fun _ => listed .divisionFault (by
      decide) (by decide)
  case mov | i2F | f2I | i2Frac | frac2I => exact executeMove_faults
  case inc | dec => exact executeBump_faults
  case cmp => exact executeCmp_faults
  case neg => exact executeNeg_faults
  case tNot => exact executeTNot_faults
  case tAnd | tOr | tXor => exact executeTrit_faults
  case less | lessEqual | greater | greaterEqual | equal | notEqual =>
    exact executeCompare_faults
  case push =>
    exact executePush_faults (listed .stackFault (by decide) (by decide))
  case pop =>
    exact executePop_faults (listed .stackFault (by decide) (by decide))
  case jump =>
    exact checkJumpTarget_faults fun invalid => decoded ⟨rfl, invalid⟩
  case jumpIfZero | jumpIfNotZero | jumpIfNegative | jumpIfPositive =>
    exact executeJumpIf_faults fun taken invalid => decoded ⟨taken, invalid⟩
  case call =>
    exact executeCall_faults fun target read invalid => decoded ⟨target,
      read, invalid⟩
  case ret =>
    exact executeRet_faults (listed .stackFault (by decide) (by decide))
  case trap => exact .trap (listed .trapInstruction (by decide) (by decide))
  case undefined => exact .trap (decoded trivial)
  case axRead =>
    exact executeAxRead_faults (listed .securityFault (by decide) (by
      decide))
  case axSet =>
    exact executeAxSet_faults (listed .securityFault (by decide) (by
      decide))
  case axVerify =>
    exact executeAxVerify_faults (listed .securityFault (by decide) (by
      decide))
  case tVecAdd | tVecMul =>
    exact executeVector_faults ⟨listed .typeFault (by decide) (by decide),
      decoded, listed .shapeFault (by decide) (by decide)⟩
  case tMatMul =>
    exact executeTMatMul_faults ⟨listed .typeFault (by decide) (by decide),
      decoded, listed .shapeFault (by decide) (by decide)⟩
  case tTenDot =>
    exact executeTTenDot_faults ⟨listed .typeFault (by decide) (by decide),
      decoded, listed .shapeFault (by decide) (by decide)⟩
  case tTranspose =>
    exact executeTTranspose_faults ⟨listed .typeFault (by decide) (by
      decide), decoded, listed .shapeFault (by decide) (by decide)⟩
  case tExp | tSqrt | tSiLU | tSoftmax | tRMSNorm | tRoPE =>
    exact executeActivation_faults ⟨listed .typeFault (by decide) (by
      decide), decoded, listed .shapeFault (by decide) (by decide)⟩
  case chkShape =>
    exact executeChkShape_faults (listed .typeFault (by decide) (by decide))
      decoded
  case weightsLoad => exact executeWeightsLoad_faults
  case setF => exact executeSetF_faults
  case makeOptionSome => exact executeMakeOptionSome_faults
  case makeOptionNone => exact executeMakeOptionNone_faults
  case makeResultOk | makeResultErr => exact executeMakeResult_faults
  case makeEnumVariant => exact executeMakeEnumVariant_faults
  case makeEnumVariantPayload =>
    exact executeMakeEnumVariantPayload_faults decoded
  case optionIsSome | optionUnwrap | resultIsOk | resultUnwrapOk |
    resultUnwrapErr | enumIsVariant | enumUnwrapPayload =>
    exact withHandle_faults (listed .typeFault (by decide) (by decide))
      decoded
  case stackAlloc =>
    exact executeStackAlloc_faults (listed .stackFault (by decide) (by
      decide))
  case stackFree =>
    exact executeStackFree_faults (listed .stackFault (by decide) (by
      decide))
  case heapAlloc =>
    exact executeHeapAlloc_faults decoded (listed .boundsFault (by decide)
      (by decide))
  case heapFree => exact executeHeapFree_faults (decoded trivial)

theorem execute_faultCodes :
    FaultsOnly (faultCodes insn.opcode) (vm.execute host insn pc) := by
  refine execute_faultsOnly (fun code listed _ => listed) fun guard => ?_
  unfold MayDecodeFault at guard
  cases opcode : insn.opcode <;> rw [opcode] at guard <;>
    first
    | exact guard.elim
    | decide
    | exact List.mem_singleton_self _

/-- A decode fault comes from one of its guards. -/
theorem mayDecodeFault_of_execute {final : Interpreter}
    (faulted : vm.execute host insn pc = .ok (.error .decodeFault, final)) :
    vm.MayDecodeFault insn := by
  by_contra guarded
  have others := @execute_faultsOnly host vm insn pc
    ((faultCodes insn.opcode).filter (· ≠ .decodeFault))
    (fun code listed distinct => by simp [listed, distinct])
    (fun guard => (guarded guard).elim)
  simpa using others .decodeFault final faulted

end Interpreter

end T81VM.VM
