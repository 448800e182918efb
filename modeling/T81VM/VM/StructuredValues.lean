import T81VM.VM.Handles

/-!
# Structured values round-trip

The three pools hold values of one abstract type, built by the `Make` opcodes
and taken apart by the others.  Whatever happens between the two, a handle is
taken apart into what it was built from.
-/

namespace T81VM.VM

open Tisc PartialSystem

/-- A structured value: an option, a result or an enum variant. -/
inductive Built where
  | optionSome (payload : Reference)
  | optionNone
  | resultOk (payload : Reference)
  | resultErr (payload : Reference)
  | variant (id : Int64)
  | variantPayload (id : Int64) (payload : Reference)
  deriving DecidableEq

def HandleKind.tag : HandleKind → ValueTag
  | .option => .optionHandle
  | .result => .resultHandle
  | .enum => .enumHandle

def Built.kind : Built → HandleKind
  | .optionSome _ | .optionNone => .option
  | .resultOk _ | .resultErr _ => .result
  | .variant _ | .variantPayload .. => .enum

/-- The kind of value an opcode inspects. -/
def inspectedKind : Opcode → Option HandleKind
  | .optionIsSome | .optionUnwrap => some .option
  | .resultIsOk | .resultUnwrapOk | .resultUnwrapErr => some .result
  | .enumIsVariant | .enumUnwrapPayload => some .enum
  | _ => none

def answerOf (condition : Bool) : Option Reference :=
  some (if condition then 1 else 0, .int)

/-- What an instruction finds in a value; `none` is the wrong constructor. -/
def Built.inspect (insn : Insn) : Built → Option Reference
  | .optionSome payload =>
      match insn.opcode with
      | .optionIsSome => answerOf true
      | .optionUnwrap => some payload
      | _ => none
  | .optionNone =>
      match insn.opcode with
      | .optionIsSome => answerOf false
      | _ => none
  | .resultOk payload =>
      match insn.opcode with
      | .resultIsOk => answerOf true
      | .resultUnwrapOk => some payload
      | _ => none
  | .resultErr payload =>
      match insn.opcode with
      | .resultIsOk => answerOf false
      | .resultUnwrapErr => some payload
      | _ => none
  | .variant id =>
      match insn.opcode with
      | .enumIsVariant => answerOf (id = insn.c)
      | _ => none
  | .variantPayload id payload =>
      match insn.opcode with
      | .enumIsVariant => answerOf (id = insn.c)
      | .enumUnwrapPayload => some payload
      | _ => none

def OptionValue.built (entry : OptionValue) : Built :=
  if entry.hasValue then .optionSome (entry.payload, entry.payloadTag)
  else .optionNone

def ResultValue.built (entry : ResultValue) : Built :=
  if entry.isOk then .resultOk (entry.payload, entry.payloadTag)
  else .resultErr (entry.payload, entry.payloadTag)

def EnumValue.built (entry : EnumValue) : Built :=
  if entry.hasPayload then
    .variantPayload entry.variantId (entry.payload, entry.payloadTag)
  else .variant entry.variantId

/-- What an instruction builds, from the register it names in `b`. -/
inductive Builds (vm : Interpreter) (insn : Insn) : Built → Prop where
  | optionSome {reg : Fin 243} (opcode : insn.opcode = .makeOptionSome)
      (index : registerIndex insn.b = .ok reg) :
      Builds vm insn
        (.optionSome (vm.state.registers reg, vm.state.registerTags reg))
  | optionNone (opcode : insn.opcode = .makeOptionNone) :
      Builds vm insn .optionNone
  | resultOk {reg : Fin 243} (opcode : insn.opcode = .makeResultOk)
      (index : registerIndex insn.b = .ok reg) :
      Builds vm insn
        (.resultOk (vm.state.registers reg, vm.state.registerTags reg))
  | resultErr {reg : Fin 243} (opcode : insn.opcode = .makeResultErr)
      (index : registerIndex insn.b = .ok reg) :
      Builds vm insn
        (.resultErr (vm.state.registers reg, vm.state.registerTags reg))
  | variant (opcode : insn.opcode = .makeEnumVariant) :
      Builds vm insn (.variant insn.b)
  | variantPayload {reg : Fin 243}
      (opcode : insn.opcode = .makeEnumVariantPayload)
      (index : registerIndex insn.b = .ok reg) :
      Builds vm insn (.variantPayload insn.c
        (vm.state.registers reg, vm.state.registerTags reg))

namespace Builds

variable {vm : Interpreter} {insn : Insn} {built : Built}

theorem of_beginInsn (builds : Builds vm.beginInsn insn built) :
    Builds vm insn built := by
  cases builds with
  | optionSome opcode index => exact .optionSome opcode index
  | optionNone opcode => exact .optionNone opcode
  | resultOk opcode index => exact .resultOk opcode index
  | resultErr opcode index => exact .resultErr opcode index
  | variant opcode => exact .variant opcode
  | variantPayload opcode index => exact .variantPayload opcode index

/-- An instruction builds one value. -/
theorem unique {other : Built} (builds : Builds vm insn built)
    (again : Builds vm insn other) : built = other := by
  cases builds with
  | optionSome opcode index | resultOk opcode index | resultErr opcode index
  | variantPayload opcode index =>
      cases again <;> simp_all
  | optionNone opcode | variant opcode => cases again <;> simp_all

theorem interns (builds : Builds vm insn built) :
    role insn.opcode = .interns := by
  cases builds with
  | optionSome opcode | optionNone opcode | resultOk opcode
  | resultErr opcode | variant opcode | variantPayload opcode =>
      rw [opcode]
      rfl

end Builds

namespace Interpreter

variable (vm : Interpreter)

/-- A pool as a list of values. -/
def builtPool : HandleKind → List Built
  | .option => vm.state.optionPool.map OptionValue.built
  | .result => vm.state.resultPool.map ResultValue.built
  | .enum => vm.state.enumPool.map EnumValue.built

/-- The value a handle of the given kind denotes. -/
def builtOf (kind : HandleKind) (handle : Int64) : Option Built :=
  poolEntry (vm.builtPool kind) handle

/-- The instruction built the value and wrote its handle, with the tag of its
kind, to its destination. -/
structure Makes (host : Host) (vm : Interpreter) (handle : Int64)
    (built : Built) (insn : Insn) (reg : Fin 243) (final : Interpreter) :
    Prop where
  fetches : vm.Fetches insn
  builds : Builds vm insn built
  stepped : vm.step host = .ok (.ok (), final)
  target : registerIndex insn.a = .ok reg
  value : final.state.registers reg = handle
  tag : final.state.registerTags reg = built.kind.tag

/-- The step number `index` of the run from `start` made the handle. -/
def MadeAt (host : Host) (start : Interpreter) (index : Nat) (handle : Int64)
    (built : Built) : Prop :=
  ∃ vm insn reg final, iterate (step host) index start = .ok vm ∧
    Makes host vm handle built insn reg final

/-- The next step writes what an inspection found, or traps when that is
nothing. -/
def Inspected (host : Host) (vm : Interpreter) (target : Fin 243) :
    Option Reference → Prop
  | some (value, tag) => ∃ final, vm.step host = .ok (.ok (), final) ∧
      final.state.registers =
        Function.update vm.state.registers target value ∧
      final.state.registerTags =
        Function.update vm.state.registerTags target tag
  | none => ∃ final, vm.step host = .ok (.error .decodeFault, final) ∧
      final.state.registers = vm.state.registers ∧
      final.state.registerTags = vm.state.registerTags

variable {vm} {host : Host} {program : Program} {insn : Insn} {pc : Nat}
  {loaded final : Interpreter} {kind : HandleKind} {built : Built}

/-! ## Inspecting -/

theorem poolEntry_map {α β : Type} (view : α → β) (pool : List α)
    (handle : Int64) :
    poolEntry (pool.map view) handle = (poolEntry pool handle).map view := by
  rw [poolEntry, poolEntry, List.length_map, List.getElem?_map]
  split <;> rfl

/-- The destructors look at the abstract value only. -/
theorem execute_inspect (inspects : inspectedKind insn.opcode = some kind) :
    vm.execute host insn pc =
      vm.withHandle insn pc kind.tag (vm.builtOf kind)
        (Built.inspect insn) := by
  have view : ∀ {α : Type} {pool : List α} {toBuilt : α → Built}
      {inspect : α → Option (Int64 × ValueTag)} {tag : ValueTag},
      (∀ entry, inspect entry = (toBuilt entry).inspect insn) →
      vm.withHandle insn pc tag (poolEntry pool) inspect =
        vm.withHandle insn pc tag (poolEntry (pool.map toBuilt))
          (Built.inspect insn) := by
    intro α pool toBuilt inspect tag same
    have handles : (fun handle => (poolEntry pool handle).bind inspect) =
        fun handle => (poolEntry (pool.map toBuilt) handle).bind
          (Built.inspect insn) := by
      funext handle
      rw [poolEntry_map, Option.bind_map]
      exact congrArg _ (funext same)
    rw [withHandle, withHandle]
    simp only [funext_iff] at handles
    simp only [handles]
  cases opcode : insn.opcode <;> rw [opcode] at inspects <;>
    cases inspects <;> rw [execute, opcode]
  case optionIsSome =>
    apply view
    intro entry
    cases present : entry.hasValue <;>
      simp [OptionValue.built, Built.inspect, answerOf, opcode, present]
  case optionUnwrap =>
    apply view
    intro entry
    cases present : entry.hasValue <;>
      simp [OptionValue.built, Built.inspect, opcode, present]
  case resultIsOk =>
    apply view
    intro entry
    cases present : entry.isOk <;>
      simp [ResultValue.built, Built.inspect, answerOf, opcode, present]
  case resultUnwrapOk | resultUnwrapErr =>
    apply view
    intro entry
    cases present : entry.isOk <;>
      simp [ResultValue.built, Built.inspect, opcode, present]
  case enumIsVariant =>
    apply view
    intro entry
    cases present : entry.hasPayload <;>
      simp [EnumValue.built, Built.inspect, answerOf, opcode, present]
  case enumUnwrapPayload =>
    apply view
    intro entry
    cases present : entry.hasPayload <;>
      simp [EnumValue.built, Built.inspect, opcode, present]

/-! ## Building -/

/-- The value is the new last entry of its pool, and its handle stands in
`reg`. -/
structure Added (vm : Interpreter) (built : Built) (reg : Fin 243)
    (final : Interpreter) : Prop where
  room : (vm.builtPool built.kind).length < maxPool
  pool : final.builtPool built.kind = vm.builtPool built.kind ++ [built]
  others : ∀ other, other ≠ built.kind →
    final.builtPool other = vm.builtPool other
  value : final.state.registers reg =
    ofSize ((vm.builtPool built.kind).length + 1)
  tag : final.state.registerTags reg = built.kind.tag

/-- Writing the handle of a new last entry. -/
theorem Added.of_wrote {grown : Interpreter} {reg : Fin 243} {size : Nat}
    {tag : ValueTag} (isKind : built.kind = kind) (tagged : kind.tag = tag)
    (length : (vm.builtPool kind).length = size) (room : size < maxPool)
    (pool : grown.builtPool kind = vm.builtPool kind ++ [built])
    (others : ∀ other, other ≠ kind →
      grown.builtPool other = vm.builtPool other) :
    Added vm built reg
      (grown.wrote insn pc reg (ofSize (size + 1)) tag).2 := by
  subst isKind tagged length
  exact ⟨room, pool, others, Function.update_self ..,
    Function.update_self ..⟩

theorem Added.option {entry : OptionValue} {reg : Fin 243}
    (room : vm.state.optionPool.length < maxPool) :
    Added vm entry.built reg
      (({ vm with
        state := { vm.state with
          optionPool := vm.state.optionPool ++ [entry] } }).wrote insn pc
        reg (ofSize (vm.state.optionPool.length + 1)) .optionHandle).2 := by
  have isKind : entry.built.kind = .option := by
    rw [OptionValue.built]
    split <;> rfl
  refine Added.of_wrote isKind rfl (List.length_map _) room ?_ ?_
  · exact List.map_append
  · intro other different
    cases other with
    | option => exact absurd rfl different
    | result | enum => rfl

theorem Added.result {entry : ResultValue} {reg : Fin 243}
    (room : vm.state.resultPool.length < maxPool) :
    Added vm entry.built reg
      (({ vm with
        state := { vm.state with
          resultPool := vm.state.resultPool ++ [entry] } }).wrote insn pc
        reg (ofSize (vm.state.resultPool.length + 1)) .resultHandle).2 := by
  have isKind : entry.built.kind = .result := by
    rw [ResultValue.built]
    split <;> rfl
  refine Added.of_wrote isKind rfl (List.length_map _) room ?_ ?_
  · exact List.map_append
  · intro other different
    cases other with
    | result => exact absurd rfl different
    | option | enum => rfl

theorem Added.enum {entry : EnumValue} {reg : Fin 243}
    (room : vm.state.enumPool.length < maxPool) :
    Added vm entry.built reg
      (({ vm with
        state := { vm.state with
          enumPool := vm.state.enumPool ++ [entry] } }).wrote insn pc
        reg (ofSize (vm.state.enumPool.length + 1)) .enumHandle).2 := by
  have isKind : entry.built.kind = .enum := by
    rw [EnumValue.built]
    split <;> rfl
  refine Added.of_wrote isKind rfl (List.length_map _) room ?_ ?_
  · exact List.map_append
  · intro other different
    cases other with
    | enum => exact absurd rfl different
    | option | result => rfl

theorem internOption_added {hasValue : Bool} {tag : ValueTag}
    {payload : Int64} {result : Expected}
    (executed : (do
      let (handle, vm) ← vm.internOption hasValue tag payload
      vm.finishWrite insn pc handle .optionHandle) = .ok (result, final)) :
    ∃ reg, registerIndex insn.a = .ok reg ∧
      Added vm (OptionValue.built ⟨hasValue, tag, payload⟩) reg final := by
  obtain ⟨⟨handle, grown⟩, interned, rest⟩ := bind_eq_ok.mp executed
  obtain ⟨room, rfl, rfl⟩ := internOption_eq_ok.mp interned
  obtain ⟨reg, index, same⟩ := finishWrite_eq_ok.mp rest
  have last := congrArg Prod.snd same
  simp only at last
  rw [last]
  exact ⟨reg, index, Added.option room⟩

theorem internResult_added {isOk : Bool} {tag : ValueTag}
    {payload : Int64} {result : Expected}
    (executed : (do
      let (handle, vm) ← vm.internResult isOk tag payload
      vm.finishWrite insn pc handle .resultHandle) = .ok (result, final)) :
    ∃ reg, registerIndex insn.a = .ok reg ∧
      Added vm (ResultValue.built ⟨isOk, tag, payload⟩) reg final := by
  obtain ⟨⟨handle, grown⟩, interned, rest⟩ := bind_eq_ok.mp executed
  obtain ⟨room, rfl, rfl⟩ := internResult_eq_ok.mp interned
  obtain ⟨reg, index, same⟩ := finishWrite_eq_ok.mp rest
  have last := congrArg Prod.snd same
  simp only at last
  rw [last]
  exact ⟨reg, index, Added.result room⟩

theorem internEnum_added {variantId : Int64} {hasPayload : Bool}
    {tag : ValueTag} {payload : Int64} {result : Expected}
    (executed : (do
      let (handle, vm) ← vm.internEnum variantId hasPayload tag payload
      vm.finishWrite insn pc handle .enumHandle) = .ok (result, final)) :
    ∃ reg, registerIndex insn.a = .ok reg ∧
      Added vm (EnumValue.built ⟨variantId, hasPayload, tag, payload⟩) reg
        final := by
  obtain ⟨⟨handle, grown⟩, interned, rest⟩ := bind_eq_ok.mp executed
  obtain ⟨room, rfl, rfl⟩ := internEnum_eq_ok.mp interned
  obtain ⟨reg, index, same⟩ := finishWrite_eq_ok.mp rest
  have last := congrArg Prod.snd same
  simp only at last
  rw [last]
  exact ⟨reg, index, Added.enum room⟩

/-- An opcode that computes with a tensor traps when no register holds one. -/
theorem withTensorPair_untagged {result : Expected}
    {compute : TensorValue → TensorValue → Outcome}
    (untagged : ∀ reg, vm.state.registerTags reg ≠ .tensorHandle)
    (executed : vm.withTensorPair insn pc compute = .ok (result, final)) :
    result = .error .typeFault := by
  obtain ⟨tagged, read, rest⟩ := bind_eq_ok.mp executed
  obtain ⟨fits, first, second⟩ := bind_eq_ok.mp read
  have unfit : fits = false := by
    rw [Bool.eq_false_iff]
    intro holds
    obtain ⟨reg, _, tag⟩ := tagIs_eq_true.mp (holds ▸ first)
    exact untagged reg tag
  rw [unfit] at second
  cases second
  cases rest
  rfl

theorem withTensor_untagged {result : Expected}
    {compute : TensorValue → Outcome}
    (untagged : ∀ reg, vm.state.registerTags reg ≠ .tensorHandle)
    (executed : vm.withTensor insn pc compute = .ok (result, final)) :
    result = .error .typeFault := by
  obtain ⟨tagged, read, rest⟩ := bind_eq_ok.mp executed
  have unfit : tagged = false := by
    rw [Bool.eq_false_iff]
    intro holds
    obtain ⟨reg, _, tag⟩ := tagIs_eq_true.mp (holds ▸ read)
    exact untagged reg tag
  rw [unfit] at rest
  cases rest
  rfl

/-- An instruction that interns an entry and succeeds builds a value. -/
theorem builds_of_interns
    (untagged : ∀ reg, vm.state.registerTags reg ≠ .tensorHandle)
    (interns : role insn.opcode = .interns)
    (executed : vm.execute host insn pc = .ok (.ok (), final)) :
    ∃ built reg, Builds vm insn built ∧ registerIndex insn.a = .ok reg ∧
      Added vm built reg final := by
  cases opcode : insn.opcode <;> rw [opcode] at interns <;> cases interns <;>
    rw [execute, opcode] at executed
  case makeOptionSome =>
    obtain ⟨⟨tag, value⟩, read, rest⟩ := bind_eq_ok.mp executed
    obtain ⟨source, index, rfl, rfl⟩ := payloadOf_eq_ok.mp read
    obtain ⟨reg, target, added⟩ := internOption_added rest
    exact ⟨_, reg, .optionSome opcode index, target, added⟩
  case makeOptionNone =>
    obtain ⟨reg, target, added⟩ := internOption_added executed
    exact ⟨_, reg, .optionNone opcode, target, added⟩
  case makeResultOk =>
    obtain ⟨⟨tag, value⟩, read, rest⟩ := bind_eq_ok.mp executed
    obtain ⟨source, index, rfl, rfl⟩ := payloadOf_eq_ok.mp read
    obtain ⟨reg, target, added⟩ := internResult_added rest
    exact ⟨_, reg, .resultOk opcode index, target, added⟩
  case makeResultErr =>
    obtain ⟨⟨tag, value⟩, read, rest⟩ := bind_eq_ok.mp executed
    obtain ⟨source, index, rfl, rfl⟩ := payloadOf_eq_ok.mp read
    obtain ⟨reg, target, added⟩ := internResult_added rest
    exact ⟨_, reg, .resultErr opcode index, target, added⟩
  case makeEnumVariant =>
    obtain ⟨reg, target, added⟩ := internEnum_added executed
    exact ⟨_, reg, .variant opcode, target, added⟩
  case makeEnumVariantPayload =>
    have body : vm.executeMakeEnumVariantPayload insn pc =
        .ok (.ok (), final) := executed
    rw [executeMakeEnumVariantPayload] at body
    split at body
    · cases body
    · obtain ⟨⟨tag, value⟩, read, rest⟩ := bind_eq_ok.mp body
      obtain ⟨source, index, rfl, rfl⟩ := payloadOf_eq_ok.mp read
      obtain ⟨reg, target, added⟩ := internEnum_added rest
      exact ⟨_, reg, .variantPayload opcode index, target, added⟩
  case tVecAdd | tVecMul | tMatMul | tTenDot =>
    have trapped := withTensorPair_untagged untagged executed
    cases trapped
  case tTranspose | tExp | tSqrt | tSiLU | tSoftmax | tRMSNorm | tRoPE =>
    have trapped := withTensor_untagged untagged executed
    cases trapped

/-! ## Runs -/

theorem builtPool_length (kind : HandleKind) :
    (vm.builtPool kind).length = vm.poolSize kind := by
  cases kind <;> exact List.length_map _

theorem PoolsKept.builtPool (kept : PoolsKept vm final) (kind : HandleKind) :
    vm.builtPool kind <+: final.builtPool kind := by
  cases kind with
  | option => exact kept.options.map _
  | result => exact kept.results.map _
  | enum => exact kept.enums.map _

/-- Transitions of other instructions keep the pools. -/
theorem builtPool_of_transition {answer : Expected × Interpreter}
    (transition : Transition vm insn pc answer)
    (others : role insn.opcode ≠ .interns) (kind : HandleKind) :
    answer.2.builtPool kind = vm.builtPool kind := by
  cases transition with
  | madeOption interns | madeResult interns | madeEnum interns
  | madeTensor interns => exact absurd interns others
  | _ => cases kind <;> rfl

theorem builtPool_of_error {answer : Expected × Interpreter} {code : Trap}
    (transition : Transition vm insn pc answer)
    (failed : answer.1 = .error code) (kind : HandleKind) :
    answer.2.builtPool kind = vm.builtPool kind := by
  cases transition with
  | faulted => cases kind <;> rfl
  | _ => cases failed

/-- A step builds a value or keeps the pools. -/
theorem step_builds {result : Expected} (sound : HandleInvariant vm)
    (stepped : vm.step host = .ok (result, final)) :
    (∀ kind, final.builtPool kind = vm.builtPool kind) ∨
      ∃ built insn reg, Added vm built reg final ∧
        Makes host vm (ofSize ((vm.builtPool built.kind).length + 1)) built
          insn reg final := by
  cases step_stepped stepped with
  | resting => exact .inl fun _ => rfl
  | rejected | overrun =>
      apply Or.inl
      intro kind
      cases kind <;> rfl
  | @executed insn _ fetches transition =>
      have begun : ∀ kind, vm.beginInsn.builtPool kind = vm.builtPool kind := by
        intro kind
        cases kind <;> rfl
      by_cases interns : role insn.opcode = .interns
      · cases result with
        | error code =>
            apply Or.inl
            intro kind
            exact (builtPool_of_error transition rfl kind).trans (begun kind)
        | ok success =>
            have untagged : ∀ reg,
                vm.beginInsn.state.registerTags reg ≠ .tensorHandle :=
              fun reg => (sound.registers reg).1
            have executed := step_of_fetches fetches ▸ stepped
            obtain ⟨built, reg, builds, target, added⟩ :=
              builds_of_interns untagged interns executed
            have here := begun built.kind
            have extended : Added vm built reg final :=
              ⟨here ▸ added.room, here ▸ added.pool,
                fun other different =>
                  (added.others other different).trans (begun other),
                here ▸ added.value, added.tag⟩
            exact .inr ⟨built, insn, reg, extended, fetches,
              builds.of_beginInsn, stepped,
              target, extended.value, extended.tag⟩
      · apply Or.inl
        intro kind
        exact (builtPool_of_transition transition interns kind).trans
          (begun kind)

/-- Every entry was made by a step of the run. -/
theorem exists_madeAt {count : Nat} (loads : Loads program loaded)
    (reached : iterate (step host) count loaded = .ok vm)
    {position : Nat} (entry : (vm.builtPool kind)[position]? = some built) :
    built.kind = kind ∧ ∃ index, index < count ∧
      MadeAt host loaded index (ofSize (position + 1)) built := by
  induction count generalizing vm with
  | zero =>
      cases reached
      obtain ⟨policy, state⟩ := loads.state_eq
      have empty : loaded.builtPool kind = [] := by
        cases kind <;> simp [builtPool, state, initialState]
      rw [empty] at entry
      cases entry
  | succ count induction =>
      obtain ⟨middle, reply, earlier, stepped⟩ := iterate_succ_last.mp reached
      have sound : HandleInvariant middle :=
        (guestReachable_iff_iterate.mpr
          ⟨loaded, count, loads, earlier⟩).handleInvariant
      have older : (middle.builtPool kind)[position]? = some built →
          built.kind = kind ∧ ∃ index, index < count + 1 ∧
            MadeAt host loaded index (ofSize (position + 1)) built := by
        intro old
        obtain ⟨sameKind, index, small, made⟩ := induction earlier old
        exact ⟨sameKind, index, Nat.lt_succ_of_lt small, made⟩
      rcases step_builds sound stepped with kept | made
      · rw [kept kind] at entry
        exact older entry
      · obtain ⟨newest, insn, reg, added, makes⟩ := made
        by_cases sameKind : kind = newest.kind
        · subst sameKind
          rw [added.pool] at entry
          by_cases old : position < (middle.builtPool newest.kind).length
          · rw [List.getElem?_append_left old] at entry
            exact older entry
          · have bound := (List.getElem?_eq_some_iff.mp entry).1
            rw [List.length_append, List.length_singleton] at bound
            have last : position = (middle.builtPool newest.kind).length := by
              omega
            rw [last, List.getElem?_concat_length] at entry
            cases entry
            exact ⟨rfl, count, Nat.lt_succ_self count, middle, insn, reg, vm,
              earlier, last ▸ makes⟩
        · rw [added.others kind sameKind] at entry
          exact older entry

/-- What making a handle does to the pools. -/
theorem Makes.added {handle : Int64} {reg : Fin 243}
    (sound : HandleInvariant vm)
    (makes : Makes host vm handle built insn reg final) :
    Added vm built reg final ∧
      handle = ofSize ((vm.builtPool built.kind).length + 1) := by
  rcases step_builds sound makes.stepped with kept | made
  · have untagged : ∀ other,
        vm.beginInsn.state.registerTags other ≠ .tensorHandle :=
      fun other => (sound.registers other).1
    have executed := step_of_fetches makes.fetches ▸ makes.stepped
    obtain ⟨other, _, _, _, added⟩ :=
      builds_of_interns untagged makes.builds.interns executed
    have longer := congrArg List.length added.pool
    have begun : vm.beginInsn.builtPool other.kind =
        vm.builtPool other.kind := by
      cases other.kind <;> rfl
    rw [kept other.kind, begun, List.length_append,
      List.length_singleton] at longer
    omega
  · obtain ⟨other, otherInsn, otherReg, added, again⟩ := made
    cases makes.fetches.unique again.fetches
    have sameBuilt := makes.builds.unique again.builds
    subst sameBuilt
    have sameReg := makes.target.symm.trans again.target
    cases sameReg
    exact ⟨added, makes.value.symm.trans again.value⟩

theorem poolEntry_last {α : Type} {pool : List α} {entry : α}
    (room : pool.length < maxPool) :
    poolEntry (pool ++ [entry]) (ofSize (pool.length + 1)) = some entry := by
  have small : pool.length + 1 < 2 ^ 63 := by
    simp only [maxPool, ptrdiffMax] at room
    omega
  have value := toInt_ofSize small
  have length : (pool ++ [entry]).length = pool.length + 1 := by simp
  obtain ⟨found, pointer, indexed, _⟩ :=
    @poolEntry_eq_some _ (pool ++ [entry]) (ofSize (pool.length + 1))
      (by omega) (by omega)
  have position : toSize (ofSize (pool.length + 1)) - 1 = pool.length := by
    rw [toSize_ofSize (by omega)]
    omega
  rw [position, List.getElem?_concat_length] at indexed
  rw [pointer, ← indexed]

/-- A handle that a step made denotes what it was built from ever after. -/
theorem MadeAt.builtOf {index count : Nat} {handle : Int64}
    (loads : Loads program loaded)
    (made : MadeAt host loaded index handle built)
    (reached : iterate (step host) count loaded = .ok vm)
    (earlier : index < count) :
    vm.builtOf built.kind handle = some built := by
  obtain ⟨before, insn, reg, after, toBefore, makes⟩ := made
  have sound : HandleInvariant before :=
    (guestReachable_iff_iterate.mpr
      ⟨loaded, index, loads, toBefore⟩).handleInvariant
  obtain ⟨added, value⟩ := makes.added sound
  obtain ⟨more, rfl⟩ : ∃ more, count = index + 1 + more :=
    ⟨count - (index + 1), by omega⟩
  obtain ⟨middle, toMiddle, rest⟩ := iterate_add_eq_ok.mp reached
  have toAfter : iterate (step host) (index + 1) loaded = .ok after :=
    iterate_succ_last.mpr ⟨before, _, toBefore, makes.stepped⟩
  rw [toAfter] at toMiddle
  cases toMiddle
  apply poolEntry_of_isPrefix ((poolsKept_iterate rest).builtPool built.kind)
  rw [added.pool, value]
  exact poolEntry_last added.room

/-- No two steps make the same handle of one kind. -/
theorem MadeAt.unique {first second : Nat} {handle : Int64} {other : Built}
    (loads : Loads program loaded)
    (made : MadeAt host loaded first handle built)
    (again : MadeAt host loaded second handle other)
    (sameKind : built.kind = other.kind) : first = second ∧ built = other := by
  have ordered : ∀ {first second : Nat} {built other : Built},
      MadeAt host loaded first handle built →
      MadeAt host loaded second handle other → built.kind = other.kind →
      ¬ first < second := by
    intro first second built other made again sameKind earlier
    obtain ⟨vm, insn, reg, final, reached, makes⟩ := again
    have sound : HandleInvariant vm :=
      (guestReachable_iff_iterate.mpr
        ⟨loaded, second, loads, reached⟩).handleInvariant
    obtain ⟨added, value⟩ := makes.added sound
    have denoted := made.builtOf loads reached earlier
    rw [sameKind, value, Interpreter.builtOf, poolEntry] at denoted
    have small : (vm.builtPool other.kind).length + 1 < 2 ^ 63 := by
      have room := added.room
      simp only [maxPool, ptrdiffMax] at room
      omega
    rw [toSize_ofSize small, if_pos (.inr (Nat.lt_succ_self _))] at denoted
    cases denoted
  have notBefore := ordered made again sameKind
  have notAfter := ordered again made sameKind.symm
  have sameIndex : first = second := by omega
  subst sameIndex
  obtain ⟨vm, insn, reg, final, reached, makes⟩ := made
  obtain ⟨vm', insn', reg', final', reached', makes'⟩ := again
  rw [reached] at reached'
  cases reached'
  cases makes.fetches.unique makes'.fetches
  exact ⟨rfl, makes.builds.unique makes'.builds⟩

theorem inspected_of_builtOf {source target : Fin 243}
    (fetches : vm.Fetches insn)
    (inspects : inspectedKind insn.opcode = some kind)
    (sourceIndex : registerIndex insn.b = .ok source)
    (targetIndex : registerIndex insn.a = .ok target)
    (tagged : vm.state.registerTags source = kind.tag)
    (denotes : vm.builtOf kind (vm.state.registers source) = some built) :
    Inspected host vm target (built.inspect insn) := by
  have tag : vm.beginInsn.tagIs insn.b kind.tag = .ok true :=
    tagIs_eq_true.mpr ⟨source, sourceIndex, tagged⟩
  have handle : vm.beginInsn.register insn.b =
      .ok (vm.state.registers source) :=
    register_eq_ok.mpr ⟨source, sourceIndex, rfl⟩
  have found : vm.beginInsn.builtOf kind (vm.state.registers source) =
      some built := by
    rw [← denotes]
    cases kind <;> rfl
  have stepped : vm.step host = match built.inspect insn with
      | some (value, tag) =>
          vm.beginInsn.finishWrite insn vm.state.pc value tag
      | none =>
          .ok (vm.beginInsn.trap .decodeFault insn.opcode vm.state.pc) := by
    rw [step_of_fetches fetches, execute_inspect inspects, withHandle]
    simp only [tag, handle, found, bind, Except.bind, Option.bind,
      Bool.not_true, Bool.false_eq_true, if_false]
    rfl
  cases inspection : built.inspect insn with
  | some written =>
      obtain ⟨value, valueTag⟩ := written
      rw [inspection] at stepped
      exact ⟨_, stepped.trans (finishWrite_eq_ok.mpr ⟨target, targetIndex, rfl⟩),
        rfl, rfl⟩
  | none =>
      rw [inspection] at stepped
      exact ⟨_, stepped, rfl, rfl⟩

/-- Whatever a guest runs, a handle was made by exactly one earlier step, and
inspecting it finds what that step built it from. -/
theorem structured_values_round_trip {count : Nat} {source target : Fin 243}
    (loads : Loads program loaded)
    (reached : iterate (step host) count loaded = .ok vm)
    (fetches : vm.Fetches insn)
    (inspects : inspectedKind insn.opcode = some kind)
    (sourceIndex : registerIndex insn.b = .ok source)
    (targetIndex : registerIndex insn.a = .ok target)
    (tagged : vm.state.registerTags source = kind.tag) :
    ∃ index built, index < count ∧ built.kind = kind ∧
      MadeAt host loaded index (vm.state.registers source) built ∧
      (∀ other otherBuilt, otherBuilt.kind = kind →
        MadeAt host loaded other (vm.state.registers source) otherBuilt →
          other = index ∧ otherBuilt = built) ∧
      Inspected host vm target (built.inspect insn) := by
  have sound : HandleInvariant vm :=
    (guestReachable_iff_iterate.mpr
      ⟨loaded, count, loads, reached⟩).handleInvariant
  have structured : handleKind (vm.state.registerTags source) = some kind := by
    rw [tagged]
    cases kind <;> rfl
  obtain ⟨lower, upper⟩ : 1 ≤ (vm.state.registers source).toInt ∧
      (vm.state.registers source).toInt ≤ vm.poolSize kind :=
    (sound.registers source).2.2 kind structured
  rw [← builtPool_length] at upper
  obtain ⟨built, pointer, entry, _⟩ := poolEntry_eq_some lower upper
  obtain ⟨sameKind, index, small, made⟩ := exists_madeAt loads reached entry
  have handle : ofSize (toSize (vm.state.registers source) - 1 + 1) =
      vm.state.registers source := by
    have nonneg : 0 ≤ vm.state.registers source :=
      Int64.le_iff_toInt_le.mpr (by simp; omega)
    have cast := toSize_of_nonneg nonneg
    have bound := (vm.state.registers source).toInt_lt
    rw [Nat.sub_add_cancel (by omega), ← Int64.toInt_inj,
      toInt_ofSize (by omega), cast]
  rw [handle] at made
  refine ⟨index, built, small, sameKind, made, ?_, ?_⟩
  · intro other otherBuilt otherKind again
    exact again.unique loads made (otherKind.trans sameKind.symm)
  · exact inspected_of_builtOf fetches inspects sourceIndex targetIndex tagged
      pointer

/-- A seven in an option in a result, unwrapped twice. -/
def nestedSeven : Program where
  insns := [
    { opcode := .loadImm, a := 0, b := 7, c := 0 },
    { opcode := .makeOptionSome, a := 1, b := 0, c := 0 },
    { opcode := .makeResultOk, a := 2, b := 1, c := 0 },
    { opcode := .i2F, a := 3, b := 2, c := 0 },
    { opcode := .resultUnwrapOk, a := 4, b := 3, c := 0 },
    { opcode := .optionUnwrap, a := 5, b := 4, c := 0 }]
  axionPolicyText := []
  fits := by decide

/-- The option of the last instruction was made by the second one. -/
theorem structured_values_round_trip_nestedSeven :
    ∃ vm, iterate (step strictHost) 5 (freshlyLoaded nestedSeven) = .ok vm ∧
      ∃ index built, index < 5 ∧ built.kind = .option ∧
        MadeAt strictHost (freshlyLoaded nestedSeven) index
          (vm.state.registers 4) built ∧
        (∀ other otherBuilt, otherBuilt.kind = .option →
          MadeAt strictHost (freshlyLoaded nestedSeven) other
            (vm.state.registers 4) otherBuilt →
          other = index ∧ otherBuilt = built) ∧
        Inspected strictHost vm 5 (built.inspect
          { opcode := .optionUnwrap, a := 5, b := 4, c := 0 }) := by
  have reached : iterate (step strictHost) 5 (freshlyLoaded nestedSeven) =
      .ok _ := rfl
  exact ⟨_, reached, structured_values_round_trip (loads_freshlyLoaded rfl)
    reached ⟨rfl, rfl, rfl⟩ rfl rfl rfl rfl⟩

end Interpreter

end T81VM.VM
