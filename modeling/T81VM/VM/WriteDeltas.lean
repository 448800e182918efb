import T81VM.Library.Journal
import T81VM.VM.OperandRoles

/-!
# The write deltas of the trace

An entry of the trace carries the write that was recorded since the last
fetch.  Three opcodes assign their register without recording it, and a fetch
past the last instruction traps before the record of its predecessor is
cleared.  In a run that avoids both, the deltas are exact and replay to the
register file.
-/

namespace T81VM.VM

open Tisc PartialSystem Journal

/-- The opcodes that assign register `a` unless they trap. -/
def assigns (opcode : Opcode) : Bool :=
  match role opcode with
  | .writes | .interns | .bumps | .pops | .stackAllocates
  | .heapAllocates => true
  | .idles | .halts | .stores | .pushes | .jumps | .calls | .returns
  | .stackFrees | .heapFrees | .faults => false

namespace TraceEntry

/-- The entry carries this write. -/
def Carries (entry : TraceEntry) (reg : Fin 243) (value : Int64)
    (tag : ValueTag) : Prop :=
  entry.writeReg = some reg.val ∧ entry.writeValue = some value ∧
    entry.writeTag = some tag

/-- The entry carries no part of a write. -/
def CarriesNothing (entry : TraceEntry) : Prop :=
  entry.writeReg = none ∧ entry.writeValue = none ∧ entry.writeTag = none

/-- The write of an entry, as a change of the register file. -/
def delta (entry : TraceEntry) : Delta (Fin 243) (Int64 × ValueTag) :=
  match entry.writeReg, entry.writeValue, entry.writeTag with
  | some reg, some value, some tag =>
      if inRange : reg < 243 then some (⟨reg, inRange⟩, (value, tag))
      else none
  | _, _, _ => none

variable {entry : TraceEntry}

theorem Carries.delta_eq {reg : Fin 243} {value : Int64} {tag : ValueTag}
    (carries : entry.Carries reg value tag) :
    entry.delta = some (reg, (value, tag)) := by
  obtain ⟨regWritten, valueWritten, tagWritten⟩ := carries
  simp [delta, regWritten, valueWritten, tagWritten]

/-- An entry carries one write at most. -/
theorem Carries.unique {reg other : Fin 243} {value written : Int64}
    {tag writtenTag : ValueTag} (carries : entry.Carries reg value tag)
    (also : entry.Carries other written writtenTag) :
    reg = other ∧ value = written ∧ tag = writtenTag := by
  have sameReg : some reg.val = some other.val :=
    carries.1.symm.trans also.1
  have sameValue : some value = some written :=
    carries.2.1.symm.trans also.2.1
  have sameTag : some tag = some writtenTag :=
    carries.2.2.symm.trans also.2.2
  exact ⟨Fin.ext (Option.some.inj sameReg), Option.some.inj sameValue,
    Option.some.inj sameTag⟩

theorem CarriesNothing.delta_eq (nothing : entry.CarriesNothing) :
    entry.delta = none := by
  simp [delta, nothing.1]

theorem CarriesNothing.not_carries {reg : Fin 243} {value : Int64}
    {tag : ValueTag} (nothing : entry.CarriesNothing) :
    ¬ entry.Carries reg value tag := by
  intro carries
  have written := carries.1
  rw [nothing.1] at written
  cases written

end TraceEntry

namespace Interpreter

variable {host : Host} {program : Program} {vm : Interpreter}

/-- Every register with its tag. -/
def cells (vm : Interpreter) (reg : Fin 243) : Int64 × ValueTag :=
  (vm.state.registers reg, vm.state.registerTags reg)

/-- The next step executes an assignment of register `reg` and leaves it with
this value and tag. -/
def SetsRegister (host : Host) (vm : Interpreter) (reg : Fin 243)
    (value : Int64) (tag : ValueTag) : Prop :=
  ∃ insn final, vm.Fetches insn ∧ assigns insn.opcode = true ∧
    registerIndex insn.a = .ok reg ∧
    vm.step host = .ok (.ok (), final) ∧ final.cells reg = (value, tag)

/-- The next step appends no entry when it rests, and otherwise one that
carries exactly the register it sets; an entry of a trap carries nothing. -/
def DeltaExact (host : Host) (vm : Interpreter) : Prop :=
  ∀ result final, vm.step host = .ok (result, final) →
    (vm.state.halted = true ∧ final = vm) ∨
    ∃ entry, final.state.trace = vm.state.trace ++ [entry] ∧
      (∀ reg value tag, entry.Carries reg value tag ↔
        vm.SetsRegister host reg value tag) ∧
      ((∀ reg value tag, ¬ vm.SetsRegister host reg value tag) →
        entry.CarriesNothing) ∧
      (entry.trap ≠ none ↔ result ≠ .ok ()) ∧
      (entry.trap ≠ none → entry.CarriesNothing)

/-- Replaying the deltas of the trace over registers of zeros rebuilds the
registers and their tags. -/
def Replays (vm : Interpreter) : Prop :=
  replay (fun _ => (0, .int)) (vm.state.trace.map TraceEntry.delta) = vm.cells

/-- No write is recorded. -/
def Unwritten (vm : Interpreter) : Prop :=
  vm.currentWriteReg = none ∧ vm.currentWriteValue = none ∧
    vm.currentWriteTag = none

/-- The next instruction is no `Inc` and no `Dec`, it is a `Pop` only on an
empty stack, and a fetch past the last instruction finds no recorded write. -/
def RecordsWrites (vm : Interpreter) : Prop :=
  (∀ insn, vm.Fetches insn →
    insn.opcode ≠ .inc ∧ insn.opcode ≠ .dec ∧
      (insn.opcode = .pop → vm.state.layout.stack.limit ≤ vm.state.sp)) ∧
  (vm.state.halted = false → vm.program.insns[vm.state.pc]? = none →
    vm.Unwritten)

@[simp] theorem cells_assignRegister {reg : Fin 243} {value : Int64}
    {tag : ValueTag} :
    (vm.assignRegister reg value tag).cells =
      Function.update vm.cells reg (value, tag) := by
  funext other
  by_cases same : other = reg
  · subst same
    simp [cells, assignRegister]
  · simp [cells, assignRegister, same]

/-- What an answer does to the register file and notes in the trace. -/
inductive Noted (vm : Interpreter) (insn : Insn) :
    Expected × Interpreter → Prop where
  | trapped {code : Trap} {entry : TraceEntry} {final : Interpreter}
      (trace : final.state.trace = vm.state.trace ++ [entry])
      (trap : entry.trap = some code) (nothing : entry.CarriesNothing)
      (kept : final.cells = vm.cells) : Noted vm insn (.error code, final)
  | unchanged {entry : TraceEntry} {final : Interpreter}
      (reads : assigns insn.opcode = false)
      (trace : final.state.trace = vm.state.trace ++ [entry])
      (trap : entry.trap = none) (nothing : entry.CarriesNothing)
      (kept : final.cells = vm.cells) : Noted vm insn (.ok (), final)
  | recorded {reg : Fin 243} {value : Int64} {tag : ValueTag}
      {entry : TraceEntry} {final : Interpreter}
      (assigned : assigns insn.opcode = true)
      (notBumps : role insn.opcode ≠ .bumps)
      (notPops : role insn.opcode ≠ .pops)
      (index : registerIndex insn.a = .ok reg)
      (trace : final.state.trace = vm.state.trace ++ [entry])
      (trap : entry.trap = none) (carries : entry.Carries reg value tag)
      (set : final.cells = Function.update vm.cells reg (value, tag)) :
      Noted vm insn (.ok (), final)
  | unrecorded {reg : Fin 243} {value : Int64} {tag : ValueTag}
      {entry : TraceEntry} {final : Interpreter}
      (bumpsOrPops : role insn.opcode = .bumps ∨
        role insn.opcode = .pops ∧
          vm.state.sp < vm.state.layout.stack.limit)
      (index : registerIndex insn.a = .ok reg)
      (trace : final.state.trace = vm.state.trace ++ [entry])
      (trap : entry.trap = none) (nothing : entry.CarriesNothing)
      (set : final.cells = Function.update vm.cells reg (value, tag)) :
      Noted vm insn (.ok (), final)

/-- An instruction begun with no recorded write notes what it writes, except
for the three opcodes that assign without recording. -/
theorem Noted.of_transition {insn : Insn} {pc : Nat}
    {answer : Expected × Interpreter} (clean : vm.Unwritten)
    (transition : Transition vm insn pc answer) : Noted vm insn answer := by
  cases transition with
  | faulted => exact .trapped rfl rfl clean rfl
  | idled idles =>
      exact .unchanged (by simp [assigns, idles]) rfl rfl clean rfl
  | halted halts =>
      exact .unchanged (by simp [assigns, halts]) rfl rfl clean rfl
  | written writes index =>
      exact .recorded (by simp [assigns, writes]) (by simp [writes])
        (by simp [writes]) index rfl rfl ⟨rfl, rfl, rfl⟩ cells_assignRegister
  | madeOption interns index | madeResult interns index
  | madeEnum interns index | madeTensor interns index =>
      exact .recorded (by simp [assigns, interns]) (by simp [interns])
        (by simp [interns]) index rfl rfl ⟨rfl, rfl, rfl⟩ cells_assignRegister
  | bumped bumps index =>
      exact .unrecorded (.inl bumps) index rfl rfl clean cells_assignRegister
  | stored stores =>
      exact .unchanged (by simp [assigns, stores]) rfl rfl clean rfl
  | pushed pushes =>
      exact .unchanged (by simp [assigns, pushes]) rfl rfl clean rfl
  | popped pops index below =>
      exact .unrecorded (.inr ⟨pops, below⟩) index rfl rfl clean
        cells_assignRegister
  | jumped jumps | passed jumps =>
      exact .unchanged (by simp [assigns, jumps]) rfl rfl clean rfl
  | called calls =>
      exact .unchanged (by simp [assigns, calls]) rfl rfl clean rfl
  | returned returns =>
      exact .unchanged (by simp [assigns, returns]) rfl rfl clean rfl
  | stackAllocated allocates index | heapAllocated allocates index =>
      exact .recorded (by simp [assigns, allocates]) (by simp [allocates])
        (by simp [allocates]) index rfl rfl ⟨rfl, rfl, rfl⟩
        cells_assignRegister
  | stackFreed frees | heapFreed frees =>
      exact .unchanged (by simp [assigns, frees]) rfl rfl clean rfl

/-! ## One step -/

theorem assigns_bumps {opcode : Opcode}
    (bumps : opcode = .inc ∨ opcode = .dec ∨ opcode = .pop) :
    assigns opcode = true ∧
      (role opcode = .bumps ∨ role opcode = .pops) := by
  rcases bumps with rfl | rfl | rfl
  · exact ⟨rfl, .inl rfl⟩
  · exact ⟨rfl, .inl rfl⟩
  · exact ⟨rfl, .inr rfl⟩

theorem role_bumps {opcode : Opcode} (bumps : role opcode = .bumps) :
    opcode = .inc ∨ opcode = .dec := by
  cases opcode <;> first | exact .inl rfl | exact .inr rfl | contradiction

theorem role_pops {opcode : Opcode} (pops : role opcode = .pops) :
    opcode = .pop :=
  opcode_of_role (by rw [pops, Role.soleOpcode])

/-- What a step sets, read off its answer. -/
theorem setsRegister_iff {insn : Insn} {result : Expected}
    {final : Interpreter} {reg : Fin 243} {value : Int64} {tag : ValueTag}
    (fetches : vm.Fetches insn)
    (stepped : vm.step host = .ok (result, final)) :
    vm.SetsRegister host reg value tag ↔
      result = .ok () ∧ assigns insn.opcode = true ∧
        registerIndex insn.a = .ok reg ∧ final.cells reg = (value, tag) := by
  constructor
  · rintro ⟨other, last, otherFetches, assigned, index, again, cell⟩
    cases fetches.unique otherFetches
    rw [stepped] at again
    cases again
    exact ⟨rfl, assigned, index, cell⟩
  · rintro ⟨rfl, assigned, index, cell⟩
    exact ⟨insn, final, fetches, assigned, index, stepped, cell⟩

/-- The condition excludes the opcodes that assign without recording. -/
theorem RecordsWrites.not_unrecorded {insn : Insn}
    (records : vm.RecordsWrites) (fetches : vm.Fetches insn) :
    ¬ (role insn.opcode = .bumps ∨ role insn.opcode = .pops ∧
      vm.state.sp < vm.state.layout.stack.limit) := by
  intro bumpsOrPops
  obtain ⟨notInc, notDec, emptyStack⟩ := records.1 insn fetches
  rcases bumpsOrPops with bumps | ⟨pops, below⟩
  · rcases role_bumps bumps with inc | dec
    · exact notInc inc
    · exact notDec dec
  · have empty := emptyStack (role_pops pops)
    exact Nat.lt_irrefl _ (Nat.lt_of_lt_of_le below empty)

/-- A step that records its writes rests, appends an entry without a write
and sets no register, or carries the one register it sets. -/
theorem RecordsWrites.step {result : Expected} {final : Interpreter}
    (records : vm.RecordsWrites) (accepted : vm.preloadTrap = none)
    (stepped : vm.step host = .ok (result, final)) :
    (vm.state.halted = true ∧ final = vm) ∨
    ∃ entry, final.state.trace = vm.state.trace ++ [entry] ∧
      (entry.trap ≠ none ↔ result ≠ .ok ()) ∧
      ((entry.CarriesNothing ∧ final.cells = vm.cells ∧
          ∀ reg value tag, ¬ vm.SetsRegister host reg value tag) ∨
        ∃ reg value tag, entry.trap = none ∧ entry.Carries reg value tag ∧
          final.cells = Function.update vm.cells reg (value, tag) ∧
          vm.SetsRegister host reg value tag ∧
          ∀ other written writtenTag,
            vm.SetsRegister host other written writtenTag →
              other = reg ∧ written = value ∧ writtenTag = tag) := by
  cases step_stepped stepped with
  | resting halted => exact .inl ⟨halted, rfl⟩
  | rejected running preload =>
      rw [accepted] at preload
      cases preload
  | overrun running _ past =>
      have nothing : (vm.traceEntry .nop vm.state.pc
          (some .decodeFault)).CarriesNothing := records.2 running past
      refine .inr ⟨_, rfl, by simp [traceEntry], .inl ⟨nothing, rfl, ?_⟩⟩
      intro reg value tag sets
      obtain ⟨insn, _, fetches, _⟩ := sets
      have fetched := fetches.fetched
      rw [past] at fetched
      cases fetched
  | @executed insn answer fetches transition =>
      have noted := Noted.of_transition ⟨rfl, rfl, rfl⟩ transition
      cases noted with
      | trapped trace trap nothing kept =>
          refine .inr ⟨_, trace, by simp [trap], .inl ⟨nothing, kept, ?_⟩⟩
          intro reg value tag sets
          have answer := ((setsRegister_iff fetches stepped).mp sets).1
          cases answer
      | unchanged reads trace trap nothing kept =>
          refine .inr ⟨_, trace, by simp [trap], .inl ⟨nothing, kept, ?_⟩⟩
          intro reg value tag sets
          have assigned := ((setsRegister_iff fetches stepped).mp sets).2.1
          rw [reads] at assigned
          cases assigned
      | @recorded reg value tag entry _ assigned _ _ index trace trap carries
          set =>
          have cell : final.cells reg = (value, tag) := by
            rw [set, Function.update_self]
          refine .inr ⟨_, trace, by simp [trap], .inr ⟨reg, value, tag, trap,
            carries, set, ?_, ?_⟩⟩
          · exact (setsRegister_iff fetches stepped).mpr
              ⟨rfl, assigned, index, cell⟩
          · intro other written writtenTag sets
            obtain ⟨_, _, sameIndex, sameCell⟩ :=
              (setsRegister_iff fetches stepped).mp sets
            rw [index] at sameIndex
            cases sameIndex
            rw [cell] at sameCell
            cases sameCell
            exact ⟨rfl, rfl, rfl⟩
      | unrecorded bumpsOrPops =>
          exact absurd bumpsOrPops (records.not_unrecorded fetches)

/-- A step that records its writes has an exact entry. -/
theorem RecordsWrites.deltaExact (records : vm.RecordsWrites)
    (accepted : vm.preloadTrap = none) : vm.DeltaExact host := by
  intro result final stepped
  rcases records.step accepted stepped with rests |
    ⟨entry, trace, traps, noted⟩
  · exact .inl rests
  · refine .inr ⟨entry, trace, ?_⟩
    rcases noted with ⟨nothing, _, sets⟩ |
      ⟨reg, value, tag, trap, carries, _, sets, unique⟩
    · refine ⟨?_, fun _ => nothing, traps, fun _ => nothing⟩
      intro reg value tag
      exact iff_of_false nothing.not_carries (sets reg value tag)
    · refine ⟨?_, ?_, traps, ?_⟩
      · intro other written writtenTag
        constructor
        · intro also
          obtain ⟨rfl, rfl, rfl⟩ := carries.unique also
          exact sets
        · intro also
          obtain ⟨rfl, rfl, rfl⟩ := unique other written writtenTag also
          exact carries
      · intro setsNothing
        exact absurd sets (setsNothing reg value tag)
      · intro trapped
        exact absurd trap trapped

/-- A recorded step keeps the trace accounting for the registers. -/
theorem Replays.step {result : Expected} {final : Interpreter}
    (replays : vm.Replays) (records : vm.RecordsWrites)
    (accepted : vm.preloadTrap = none)
    (stepped : vm.step host = .ok (result, final)) : final.Replays := by
  rcases records.step accepted stepped with ⟨_, rfl⟩ |
    ⟨entry, trace, _, noted⟩
  · exact replays
  · rw [Replays, trace, List.map_append]
    apply replay_append_eq replays
    rcases noted with ⟨nothing, kept, _⟩ | ⟨reg, value, tag, _, carries, set, _⟩
    · rw [nothing.delta_eq]
      exact kept
    · rw [carries.delta_eq]
      exact set

/-! ## The condition is needed -/

theorem executeBump_eq_ok {insn : Insn} {pc : Nat} {op : Int64 → SignedOp}
    {result : Expected} {final : Interpreter}
    (executed : vm.executeBump host insn pc op = .ok (result, final)) :
    result = .ok () := by
  obtain ⟨old, _, rest⟩ := bind_eq_ok.mp executed
  obtain ⟨value, _, rest⟩ := bind_eq_ok.mp rest
  obtain ⟨reg, _, rest⟩ := bind_eq_ok.mp rest
  cases rest
  rfl

theorem executePop_eq_ok {insn : Insn} {pc : Nat} {result : Expected}
    {final : Interpreter} (below : vm.state.sp < vm.state.layout.stack.limit)
    (executed : vm.executePop insn pc = .ok (result, final)) :
    result = .ok () := by
  have nonempty : ¬ vm.state.sp ≥ vm.state.layout.stack.limit :=
    Nat.not_le.mpr below
  obtain ⟨popped, found, rest⟩ := bind_eq_ok.mp executed
  rw [popRegister, if_neg nonempty] at found
  obtain ⟨value, _, found⟩ := bind_eq_ok.mp found
  obtain ⟨reg, _, found⟩ := bind_eq_ok.mp found
  cases found
  obtain ⟨read, _, rest⟩ := bind_eq_ok.mp rest
  cases rest
  rfl

/-- An opcode that assigns without recording leaves an entry that is not
exact. -/
theorem not_deltaExact_of_unrecorded {insn : Insn} {final : Interpreter}
    (fetches : vm.Fetches insn)
    (bumps : insn.opcode = .inc ∨ insn.opcode = .dec ∨ insn.opcode = .pop)
    (stepped : vm.step host = .ok (.ok (), final)) :
    ¬ vm.DeltaExact host := by
  intro exact
  obtain ⟨assigned, bumpsOrPops⟩ := assigns_bumps bumps
  rcases exact _ _ stepped with ⟨halted, _⟩ | ⟨entry, trace, carried, _⟩
  · rw [fetches.running] at halted
    cases halted
  · cases step_stepped stepped with
    | resting halted =>
        rw [fetches.running] at halted
        cases halted
    | @executed other answer otherFetches transition =>
        cases fetches.unique otherFetches
        have noted := Noted.of_transition ⟨rfl, rfl, rfl⟩ transition
        cases noted with
        | unchanged reads =>
            rw [assigned] at reads
            cases reads
        | recorded _ notBumps notPops =>
            rcases bumpsOrPops with bumps | pops
            · exact notBumps bumps
            · exact notPops pops
        | @unrecorded reg value tag appended _ _ index noted _ nothing set =>
            have entries : [appended] = [entry] :=
              List.append_cancel_left (noted.symm.trans trace)
            cases entries
            have cell : final.cells reg = (value, tag) := by
              rw [set, Function.update_self]
            have sets : vm.SetsRegister host reg value tag :=
              (setsRegister_iff fetches stepped).mpr
                ⟨rfl, assigned, index, cell⟩
            exact nothing.not_carries ((carried reg value tag).mpr sets)

/-- A step with an exact entry records its writes. -/
theorem DeltaExact.recordsWrites {result : Expected} {final : Interpreter}
    (exact : vm.DeltaExact host) (accepted : vm.preloadTrap = none)
    (stepped : vm.step host = .ok (result, final)) : vm.RecordsWrites := by
  constructor
  · intro insn fetches
    have executed := stepped
    rw [step_of_fetches fetches] at executed
    have excluded : ∀ bumps : insn.opcode = .inc ∨ insn.opcode = .dec ∨
        insn.opcode = .pop, result ≠ .ok () := by
      rintro bumps rfl
      exact not_deltaExact_of_unrecorded fetches bumps stepped exact
    refine ⟨?_, ?_, ?_⟩
    · intro inc
      rw [execute, inc] at executed
      exact excluded (.inl inc) (executeBump_eq_ok executed)
    · intro dec
      rw [execute, dec] at executed
      exact excluded (.inr (.inl dec)) (executeBump_eq_ok executed)
    · intro pop
      rw [execute, pop] at executed
      apply Nat.le_of_not_lt
      intro below
      exact excluded (.inr (.inr pop))
        (@executePop_eq_ok vm.beginInsn _ _ _ _ below executed)
  · intro running past
    have answer : vm.step host = .ok (vm.trap .decodeFault .nop vm.state.pc) :=
      by simp [step, running, accepted, past]
    rcases exact _ _ answer with ⟨halted, _⟩ | ⟨entry, trace, _, _, traps, silent⟩
    · rw [running] at halted
      cases halted
    · have entries : [vm.traceEntry .nop vm.state.pc (some .decodeFault)] =
          [entry] := List.append_cancel_left trace
      cases entries
      exact silent (by simp [traceEntry])

/-! ## Runs -/

theorem Loads.replays (loads : Loads program vm) : vm.Replays := by
  obtain ⟨policy, state⟩ := loads.state_eq
  funext reg
  rw [cells, state]
  rfl

/-- The deltas of a guest run are exact, and replay to the registers at every
point, exactly when every step of the run records its writes. -/
theorem deltas_exact_iff {loaded : Interpreter} {calls : List Call}
    {replies : List Reply} (accepted : validateProgram program = none)
    (loads : Loads program loaded) (guest : ∀ call ∈ calls, call.guest)
    (finished : run (call host) calls loaded = .ok (replies, vm)) :
    ∃ count, iterate (step host) count loaded = .ok vm ∧
      (Before (step host) loaded count (DeltaExact host) ∧
          Throughout (step host) loaded count Replays ↔
        Before (step host) loaded count RecordsWrites) := by
  obtain ⟨count, reached⟩ := run_guest_iterate guest finished
  have preload := loads.preloadTrap_eq.trans accepted
  have barred : ∀ {index state}, iterate (step host) index loaded = .ok state →
      state.preloadTrap = none :=
    fun earlier => (iterate_kept preload earlier).1
  refine ⟨count, reached, ?_, ?_⟩
  · intro ⟨exact, _⟩ index small state earlier
    obtain ⟨result, next, stepped, _⟩ :=
      step_of_before reached small earlier
    exact (exact index small state earlier).recordsWrites (barred earlier)
      stepped
  · intro records
    constructor
    · intro index small state earlier
      exact (records index small state earlier).deltaExact (barred earlier)
    · have kept := throughout_of_before
        (fun state => state.Replays ∧ state.preloadTrap = none) RecordsWrites
        (fun state result next holds records stepped =>
          ⟨holds.1.step records holds.2 stepped,
            (step_stepped stepped).preloadTrap_eq holds.2⟩)
        ⟨loads.replays, preload⟩ records
      exact kept.mono fun _ holds => holds.1

/-- `LoadImm 0 7`, then `Inc 0`. -/
def incrementSeven : Program where
  insns := [
    { opcode := .loadImm, a := 0, b := 7, c := 0 },
    { opcode := .inc, a := 0, b := 0, c := 0 }]
  axionPolicyText := []
  fits := by decide

/-- The first step of the program records its write. -/
theorem deltas_exact_iff_incrementSeven :
    ∃ replies vm, run (call strictHost) [.step]
        (freshlyLoaded incrementSeven) = .ok (replies, vm) ∧
      ∃ count, iterate (step strictHost) count
          (freshlyLoaded incrementSeven) = .ok vm ∧
        (Before (step strictHost) (freshlyLoaded incrementSeven) count
            (DeltaExact strictHost) ∧
            Throughout (step strictHost) (freshlyLoaded incrementSeven) count
              Replays ↔
          Before (step strictHost) (freshlyLoaded incrementSeven) count
            RecordsWrites) := by
  have finished : run (call strictHost) [.step]
      (freshlyLoaded incrementSeven) = .ok (_, _) := rfl
  exact ⟨_, _, finished, deltas_exact_iff rfl (loads_freshlyLoaded rfl)
    (by simp [Call.guest]) finished⟩

/-- After the increment the trace replays to 7 where the register holds 8. -/
theorem not_deltas_exact_incrementSeven :
    ¬ ∀ host program loaded calls replies vm,
      validateProgram program = none → WellFormed program →
      Loads program loaded → (∀ call ∈ calls, Call.guest call) →
      run (call host) calls loaded = .ok (replies, vm) →
      Replays vm := by
  intro exact
  have accepted : validateProgram incrementSeven = none := rfl
  have wellFormed : WellFormed incrementSeven :=
    wellFormed_iff.mpr ⟨validateProgram_eq_none_iff_otherwise.mp accepted,
      by unfold ConversionsInRange; decide⟩
  have finished : run (call strictHost) [.step, .step]
      (freshlyLoaded incrementSeven) = .ok (_, _) := rfl
  have replays := exact strictHost incrementSeven _ _ _ _ accepted wellFormed
    (loads_freshlyLoaded rfl) (by simp [Call.guest]) finished
  have register := congrFun replays 0
  have seven : ((7 : Int64), ValueTag.int) = (8, .int) := register
  simp at seven

end Interpreter

end T81VM.VM
