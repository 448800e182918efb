import T81VM.Library.CallHistory
import T81VM.VM.OperandRoles

/-!
# Control flow

The program counter of an accepted program stays inside it and moves along
legal successors only.  The call stack is hidden in the object, but the trace
determines it: it lists the return addresses of the pending calls.
-/

namespace T81VM.VM

open Tisc PartialSystem CallHistory

/-- What an entry of the trace is to the call stack: an executed `Call`, an
executed `Ret`, or neither. -/
def bracket (entry : TraceEntry) : Option DyckStep :=
  match entry.trap, entry.opcode with
  | none, .call => some .U
  | none, .ret => some .D
  | _, _ => none

/-- The trap of a result. -/
def trapOf : Expected → Option Trap
  | .ok _ => none
  | .error code => some code

theorem role_calls {opcode : Opcode} (calls : role opcode = .calls) :
    opcode = .call :=
  opcode_of_role (by rw [calls, Role.soleOpcode])

theorem role_returns {opcode : Opcode} (returns : role opcode = .returns) :
    opcode = .ret :=
  opcode_of_role (by rw [returns, Role.soleOpcode])

section Bracket

variable {entry : TraceEntry}

theorem bracket_trapped (trapped : entry.trap ≠ none) :
    bracket entry = none := by
  unfold bracket
  split <;> first | rfl | contradiction

theorem bracket_other (notCall : role entry.opcode ≠ .calls)
    (notRet : role entry.opcode ≠ .returns) : bracket entry = none := by
  unfold bracket
  split
  · rename_i opcode
    exact absurd (congrArg role opcode) notCall
  · rename_i opcode
    exact absurd (congrArg role opcode) notRet
  · rfl

theorem bracket_call (executed : entry.trap = none)
    (calls : entry.opcode = .call) : bracket entry = some .U := by
  simp [bracket, executed, calls]

theorem bracket_ret (executed : entry.trap = none)
    (returns : entry.opcode = .ret) : bracket entry = some .D := by
  simp [bracket, executed, returns]

theorem opcode_of_bracket (opens : bracket entry = some .U) :
    entry.opcode = .call := by
  unfold bracket at opens
  split at opens
  · assumption
  · cases opens
  · cases opens

end Bracket

namespace Interpreter

variable {host : Host} {program : Program} {vm final : Interpreter}
  {insn : Insn} {result : Expected}

/-- The legal successors of the program counter. -/
inductive LegalMove (vm : Interpreter) : Expected → Nat → Prop where
  | trapped (code : Trap) : LegalMove vm (.error code) vm.state.pc
  | onward {insn : Insn} (fetches : vm.Fetches insn)
      (notJump : role insn.opcode ≠ .jumps)
      (notCall : insn.opcode ≠ .call) (notRet : insn.opcode ≠ .ret) :
      LegalMove vm (.ok ()) (vm.state.pc + 1)
  | untaken {insn : Insn} (fetches : vm.Fetches insn)
      (jumps : role insn.opcode = .jumps)
      (untaken : jumpTaken vm.state.flags insn.opcode = false) :
      LegalMove vm (.ok ()) (vm.state.pc + 1)
  | taken {insn : Insn} {target : Nat} (fetches : vm.Fetches insn)
      (jumps : role insn.opcode = .jumps)
      (taken : jumpTaken vm.state.flags insn.opcode = true)
      (operand : (target : Int) = insn.a.toInt) :
      LegalMove vm (.ok ()) target
  | called {insn : Insn} {reg : Fin 243} {target : Nat}
      (fetches : vm.Fetches insn) (calls : insn.opcode = .call)
      (index : registerIndex insn.a = .ok reg)
      (register : (target : Int) = (vm.state.registers reg).toInt) :
      LegalMove vm (.ok ()) target
  | returned {insn : Insn} {before after : List TraceEntry}
      {site : TraceEntry} (fetches : vm.Fetches insn)
      (returns : insn.opcode = .ret)
      (history : vm.state.trace = before ++ site :: after)
      (opens : bracket site = some .U) (matched : Balanced bracket after) :
      LegalMove vm (.ok ()) (site.pc + 1)

/-- What an answer does to the program counter and to the call stack. -/
inductive Control (vm : Interpreter) (insn : Insn) :
    Expected → Interpreter → Prop where
  | trapped {code : Trap} {final : Interpreter}
      (kept : final.state.pc = vm.state.pc)
      (frames : final.callStack = vm.callStack) :
      Control vm insn (.error code) final
  | onward {final : Interpreter} (notJump : role insn.opcode ≠ .jumps)
      (notCall : role insn.opcode ≠ .calls)
      (notRet : role insn.opcode ≠ .returns)
      (next : final.state.pc = vm.state.pc + 1)
      (frames : final.callStack = vm.callStack) :
      Control vm insn (.ok ()) final
  | untaken {final : Interpreter} (jumps : role insn.opcode = .jumps)
      (untaken : jumpTaken vm.state.flags insn.opcode = false)
      (next : final.state.pc = vm.state.pc + 1)
      (frames : final.callStack = vm.callStack) :
      Control vm insn (.ok ()) final
  | taken {final : Interpreter} (jumps : role insn.opcode = .jumps)
      (taken : jumpTaken vm.state.flags insn.opcode = true)
      (nonneg : 0 ≤ insn.a)
      (inside : toSize insn.a < vm.program.insns.length)
      (target : final.state.pc = toSize insn.a)
      (frames : final.callStack = vm.callStack) :
      Control vm insn (.ok ()) final
  | called {final : Interpreter} {reg : Fin 243}
      (calls : role insn.opcode = .calls)
      (index : registerIndex insn.a = .ok reg)
      (nonneg : 0 ≤ vm.state.registers reg)
      (inside : toSize (vm.state.registers reg) < vm.program.insns.length)
      (target : final.state.pc = toSize (vm.state.registers reg))
      (frames : final.callStack = (vm.state.pc + 1) :: vm.callStack) :
      Control vm insn (.ok ()) final
  | returned {final : Interpreter} {back : Nat} {callers : List Nat}
      (returns : role insn.opcode = .returns)
      (frames : vm.callStack = back :: callers)
      (target : final.state.pc = back)
      (left : final.callStack = callers) : Control vm insn (.ok ()) final

theorem Control.of_transition {answer : Expected × Interpreter}
    (transition : Transition vm insn vm.state.pc answer) :
    Control vm insn answer.1 answer.2 := by
  cases transition with
  | faulted => exact .trapped rfl rfl
  | jumped jumps taken nonneg inside =>
      exact .taken jumps taken nonneg inside rfl rfl
  | passed jumps untaken => exact .untaken jumps untaken rfl rfl
  | called calls index nonneg inside =>
      exact .called calls index nonneg inside rfl rfl
  | returned returns frames => exact .returned returns frames rfl rfl
  | idled same | halted same | written same | madeOption same
  | madeResult same | madeEnum same | madeTensor same | bumped same
  | stored same | pushed same | popped same | stackAllocated same
  | stackFreed same | heapAllocated same | heapFreed same =>
      exact .onward (by simp [same]) (by simp [same]) (by simp [same]) rfl rfl

/-- The entry an answer appends. -/
theorem entry_of_transition {pc : Nat} {answer : Expected × Interpreter}
    (transition : Transition vm insn pc answer) :
    ∃ entry, answer.2.state.trace = vm.state.trace ++ [entry] ∧
      entry.pc = pc ∧ entry.opcode = insn.opcode ∧
      entry.trap = trapOf answer.1 := by
  cases transition <;> exact ⟨_, rfl, rfl, rfl, rfl⟩

/-! ## The invariant -/

/-- The program counter is inside the accepted program or at its end, the
call stack lists the return addresses of the pending calls of the trace, and
every call of the trace was made by a `Call` of the program. -/
structure Controlled (program : Program) (vm : Interpreter) : Prop
    extends Accepted program vm where
  pc_le : vm.state.pc ≤ program.insns.length
  frames : ∃ pending, Pending bracket vm.state.trace pending ∧
    vm.callStack = pending.map fun site => site.pc + 1
  sites : ∀ site ∈ vm.state.trace, bracket site = some .U →
    ∃ insn, program.insns[site.pc]? = some insn ∧ insn.opcode = .call

theorem Loads.controlled (loads : Loads program vm)
    (accepted : validateProgram program = none) : Controlled program vm := by
  obtain ⟨policy, state⟩ := loads.state_eq
  refine ⟨loads.accepted accepted, ?_, ⟨[], ?_, loads.callStack_eq⟩, ?_⟩
  · rw [state]
    exact Nat.zero_le _
  · rw [state]
    exact .balanced .nil
  · intro site member
    rw [state] at member
    cases member

/-- Return addresses follow a `Call`. -/
theorem Controlled.callStack (controlled : Controlled program vm)
    {back : Nat} (member : back ∈ vm.callStack) :
    ∃ i insn, back = i + 1 ∧ program.insns[i]? = some insn ∧
      insn.opcode = .call := by
  obtain ⟨pending, stack, frames⟩ := controlled.frames
  rw [frames] at member
  obtain ⟨site, inside, rfl⟩ := List.mem_map.mp member
  obtain ⟨traced, opens⟩ := stack.mem inside
  obtain ⟨insn, fetched, calls⟩ := controlled.sites site traced opens
  exact ⟨site.pc, insn, rfl, fetched, calls⟩

/-- An answer and its entry keep the invariant. -/
theorem Controlled.control {entry : TraceEntry}
    (controlled : Controlled program vm) (accepted : Accepted program final)
    (fetched : program.insns[vm.state.pc]? = some insn)
    (control : Control vm insn result final)
    (trace : final.state.trace = vm.state.trace ++ [entry])
    (pc : entry.pc = vm.state.pc) (opcode : entry.opcode = insn.opcode)
    (trap : entry.trap = trapOf result) : Controlled program final := by
  have below : vm.state.pc < program.insns.length :=
    (List.getElem?_eq_some_iff.mp fetched).1
  have size : vm.program.insns.length = program.insns.length := by
    rw [controlled.program_eq]
  obtain ⟨pending, stack, frames⟩ := controlled.frames
  have sites : ∀ site ∈ final.state.trace, bracket site = some .U →
      ∃ insn, program.insns[site.pc]? = some insn ∧ insn.opcode = .call := by
    intro site member opens
    rw [trace] at member
    rcases List.mem_append.mp member with old | new
    · exact controlled.sites site old opens
    · rw [List.mem_singleton] at new
      subst new
      exact ⟨insn, pc ▸ fetched, opcode ▸ opcode_of_bracket opens⟩
  cases control with
  | trapped kept same =>
      have neutral : bracket entry = none :=
        bracket_trapped (by simp [trap, trapOf])
      refine ⟨accepted, ?_, ⟨pending, ?_, same.trans frames⟩, sites⟩
      · rw [kept]
        exact controlled.pc_le
      · rw [trace]
        exact stack.other neutral
  | onward notJump notCall notRet next same =>
      have neutral : bracket entry = none :=
        bracket_other (opcode ▸ notCall) (opcode ▸ notRet)
      refine ⟨accepted, ?_, ⟨pending, ?_, same.trans frames⟩, sites⟩
      · rw [next]
        exact below
      · rw [trace]
        exact stack.other neutral
  | untaken jumps untaken next same =>
      have neutral : bracket entry = none :=
        bracket_other (by simp [opcode, jumps]) (by simp [opcode, jumps])
      refine ⟨accepted, ?_, ⟨pending, ?_, same.trans frames⟩, sites⟩
      · rw [next]
        exact below
      · rw [trace]
        exact stack.other neutral
  | taken jumps taken nonneg inside target same =>
      have neutral : bracket entry = none :=
        bracket_other (by simp [opcode, jumps]) (by simp [opcode, jumps])
      refine ⟨accepted, ?_, ⟨pending, ?_, same.trans frames⟩, sites⟩
      · rw [target, ← size]
        exact Nat.le_of_lt inside
      · rw [trace]
        exact stack.other neutral
  | called calls index nonneg inside target pushed =>
      have opens : bracket entry = some .U :=
        bracket_call trap (opcode.trans (role_calls calls))
      refine ⟨accepted, ?_, ⟨entry :: pending, ?_, ?_⟩, sites⟩
      · rw [target, ← size]
        exact Nat.le_of_lt inside
      · rw [trace]
        exact stack.push opens
      · rw [pushed, List.map_cons, frames, pc]
  | @returned _ back callers returns stacked target left =>
      have closes : bracket entry = some .D :=
        bracket_ret trap (opcode.trans (role_returns returns))
      obtain ⟨i, site, rfl, called, _⟩ :=
        controlled.callStack (stacked ▸ List.mem_cons_self)
      have inside := (List.getElem?_eq_some_iff.mp called).1
      rw [frames] at stacked
      obtain ⟨call, rest, rfl, _, later⟩ := List.map_eq_cons_iff.mp stacked
      refine ⟨accepted, ?_, ⟨rest, ?_, left.trans later.symm⟩, sites⟩
      · rw [target]
        exact inside
      · rw [trace]
        exact stack.pop closes

/-- The move of an answer is legal. -/
theorem Controlled.legalMove (controlled : Controlled program vm)
    (fetches : vm.Fetches insn) (control : Control vm insn result final) :
    LegalMove vm result final.state.pc := by
  cases control with
  | trapped kept =>
      rw [kept]
      exact .trapped _
  | onward notJump notCall notRet next =>
      rw [next]
      exact .onward fetches notJump (fun same => notCall (same ▸ rfl))
        (fun same => notRet (same ▸ rfl))
  | untaken jumps untaken next =>
      rw [next]
      exact .untaken fetches jumps untaken
  | taken jumps taken nonneg inside target =>
      rw [target]
      exact .taken fetches jumps taken (toSize_of_nonneg nonneg)
  | called calls index nonneg inside target =>
      rw [target]
      exact .called fetches (role_calls calls) index (toSize_of_nonneg nonneg)
  | returned returns stacked target =>
      obtain ⟨pending, stack, frames⟩ := controlled.frames
      rw [frames] at stacked
      obtain ⟨site, rest, rfl, same, _⟩ := List.map_eq_cons_iff.mp stacked
      obtain ⟨before, after, history, opens, matched⟩ := stack.most_recent
      rw [target, ← same]
      exact .returned fetches (role_returns returns) history opens matched

/-- A step rests, or appends an entry for the program counter it starts from
and moves to a legal successor. -/
theorem Controlled.step (controlled : Controlled program vm)
    (stepped : vm.step host = .ok (result, final)) :
    Controlled program final ∧
      ((vm.state.halted = true ∧ final = vm) ∨
        ∃ entry, final.state.trace = vm.state.trace ++ [entry] ∧
          entry.pc = vm.state.pc ∧ entry.trap = trapOf result ∧
          LegalMove vm result final.state.pc) := by
  have accepted := controlled.toAccepted.step stepped
  cases step_stepped stepped with
  | resting halted => exact ⟨controlled, .inl ⟨halted, rfl⟩⟩
  | rejected running preload =>
      rw [controlled.preloadTrap_eq] at preload
      cases preload
  | overrun running _ past =>
      obtain ⟨pending, stack, frames⟩ := controlled.frames
      have neutral : bracket (vm.traceEntry .nop vm.state.pc
          (some .decodeFault)) = none := rfl
      constructor
      · refine ⟨accepted, controlled.pc_le,
          ⟨pending, stack.other neutral, frames⟩, ?_⟩
        intro site member opens
        rcases List.mem_append.mp member with old | new
        · exact controlled.sites site old opens
        · rw [List.mem_singleton] at new
          subst new
          cases opens
      · exact .inr ⟨_, rfl, rfl, rfl, .trapped _⟩
  | @executed insn answer fetches transition =>
      have fetched : program.insns[vm.state.pc]? = some insn := by
        rw [← controlled.program_eq]
        exact fetches.fetched
      have begun : Control vm.beginInsn insn result final :=
        Control.of_transition transition
      have control : Control vm insn result final := by
        cases begun with
        | trapped kept same => exact .trapped kept same
        | onward notJump notCall notRet next same =>
            exact .onward notJump notCall notRet next same
        | untaken jumps untaken next same =>
            exact .untaken jumps untaken next same
        | taken jumps taken nonneg inside target same =>
            exact .taken jumps taken nonneg inside target same
        | called calls index nonneg inside target same =>
            exact .called calls index nonneg inside target same
        | returned returns stacked target same =>
            exact .returned returns stacked target same
      obtain ⟨entry, trace, pc, opcode, trap⟩ :=
        entry_of_transition transition
      exact ⟨controlled.control accepted fetched control trace pc opcode trap,
        .inr ⟨entry, trace, pc, trap, controlled.legalMove fetches control⟩⟩

/-- The target of a fetched jump is inside the program. -/
theorem Controlled.jumpTarget (controlled : Controlled program vm)
    (accepted : validateProgram program = none) (fetches : vm.Fetches insn)
    (jumps : role insn.opcode = .jumps) :
    ¬ (insn.a < 0 ∨ toSize insn.a ≥ vm.program.insns.length) := by
  have fetched := fetches.fetched
  rw [controlled.program_eq] at fetched ⊢
  have member : insn ∈ program.insns := List.mem_of_getElem? fetched
  have target :=
    (validateProgram_eq_none_iff_otherwise.mp accepted insn member).target
  obtain ⟨nonneg, inside⟩ := target jumps
  rintro (negative | past)
  · exact Int64.not_lt.mpr nonneg negative
  · exact Nat.lt_irrefl _ (Nat.lt_of_lt_of_le inside past)

theorem step_ret (fetches : vm.Fetches insn)
    (returns : insn.opcode = .ret) :
    vm.step host = vm.beginInsn.executeRet insn vm.state.pc := by
  rw [step_of_fetches fetches, execute, returns]

/-- `Ret` without a caller traps. -/
theorem step_ret_nil (fetches : vm.Fetches insn)
    (returns : insn.opcode = .ret) (empty : vm.callStack = []) :
    ∃ final, vm.step host = .ok (.error .stackFault, final) := by
  have begun : vm.beginInsn.callStack = [] := empty
  rw [step_ret fetches returns, executeRet, begun]
  exact ⟨_, rfl⟩

/-- `Ret` with a caller resumes it. -/
theorem step_ret_cons {back : Nat} {callers : List Nat}
    (fetches : vm.Fetches insn) (returns : insn.opcode = .ret)
    (frames : vm.callStack = back :: callers) :
    ∃ final, vm.step host = .ok (.ok (), final) ∧
      final.state.pc = back := by
  have begun : vm.beginInsn.callStack = back :: callers := frames
  rw [step_ret fetches returns, executeRet, begun]
  exact ⟨_, rfl, rfl⟩

/-- `Ret` traps when the history is balanced, and resumes otherwise. -/
theorem Controlled.ret (controlled : Controlled program vm)
    (fetches : vm.Fetches insn) (returns : insn.opcode = .ret) :
    ∃ result final, vm.step host = .ok (result, final) ∧
      (result = .error .stackFault ↔ Balanced bracket vm.state.trace) ∧
      (¬ Balanced bracket vm.state.trace →
        result = .ok () ∧ ∃ before site after,
          vm.state.trace = before ++ site :: after ∧
          bracket site = some .U ∧ Balanced bracket after ∧
          final.state.pc = site.pc + 1) := by
  obtain ⟨pending, stack, frames⟩ := controlled.frames
  have balanced := stack.eq_nil_iff
  cases pending with
  | nil =>
      have whole := balanced.mp rfl
      obtain ⟨final, stepped⟩ := @step_ret_nil host _ _ fetches returns frames
      refine ⟨_, final, stepped, iff_of_true rfl whole, ?_⟩
      intro unbalanced
      exact absurd whole unbalanced
  | cons site rest =>
      have unbalanced : ¬ Balanced bracket vm.state.trace := by
        intro whole
        cases balanced.mpr whole
      obtain ⟨before, after, history, opens, matched⟩ := stack.most_recent
      obtain ⟨final, stepped, target⟩ :=
        @step_ret_cons host _ _ _ _ fetches returns frames
      refine ⟨_, final, stepped, iff_of_false nofun unbalanced, ?_⟩
      intro _
      exact ⟨rfl, before, site, after, history, opens, matched, target⟩

/-! ## Consecutive entries -/

/-- The entry after `before` was appended by a step of the run that moved the
program counter to `pc` legally. -/
def MovesTo (host : Host) (program : Program) (before : List TraceEntry)
    (entry : TraceEntry) (pc : Nat) : Prop :=
  ∃ state result next, GuestReachable host program state ∧
    state.step host = .ok (result, next) ∧
    state.state.trace = before ∧ next.state.trace = before ++ [entry] ∧
    entry.pc = state.state.pc ∧ entry.trap = trapOf result ∧
    LegalMove state result pc

/-- Every entry moves to the program counter of the entry that follows it,
and the last one to the present program counter. -/
def Chronicle (host : Host) (program : Program) (vm : Interpreter) : Prop :=
  ∀ before entry rest, vm.state.trace = before ++ entry :: rest →
    MovesTo host program before entry
      ((rest.head?.map TraceEntry.pc).getD vm.state.pc)

theorem GuestReachable.step (reached : GuestReachable host program vm)
    (stepped : vm.step host = .ok (result, final)) :
    GuestReachable host program final := by
  obtain ⟨loaded, count, loads, iterated⟩ :=
    guestReachable_iff_iterate.mp reached
  apply guestReachable_iff_iterate.mpr
  exact ⟨loaded, count + 1, loads,
    iterate_succ_last.mpr ⟨vm, result, iterated, stepped⟩⟩

theorem Chronicle.step (chronicle : Chronicle host program vm)
    (reached : GuestReachable host program vm)
    (controlled : Controlled program vm)
    (stepped : vm.step host = .ok (result, final)) :
    Chronicle host program final := by
  rcases (controlled.step stepped).2 with ⟨_, rfl⟩ |
    ⟨entry, trace, pc, trap, legal⟩
  · exact chronicle
  · intro before first rest split
    rw [trace] at split
    rcases List.eq_nil_or_concat rest with rfl | ⟨middle, last, rfl⟩
    · -- The entry of this step.
      obtain ⟨rfl, same⟩ := List.append_inj' split rfl
      cases same
      exact ⟨vm, result, final, reached, stepped, rfl, trace, pc, trap, legal⟩
    · -- An older entry; only the last of them gets a new successor.
      rw [List.concat_eq_append, ← List.cons_append,
        ← List.append_assoc] at split
      obtain ⟨older, same⟩ := List.append_inj' split rfl
      cases same
      have moves := chronicle before first middle older
      cases middle with
      | nil =>
          rw [List.head?_nil, Option.map_none, Option.getD_none,
            ← pc] at moves
          exact moves
      | cons second others => exact moves

/-! ## The whole run -/

/-- Control flow stays inside the program and returns to its callers. -/
structure ControlFlowSafe (host : Host) (program : Program)
    (vm : Interpreter) : Prop where
  pc_le : vm.state.pc ≤ program.insns.length
  callStack : ∀ back ∈ vm.callStack, ∃ i insn, back = i + 1 ∧
    program.insns[i]? = some insn ∧ insn.opcode = .call
  /-- The test of `check_jump_target` does not fail. -/
  jumps : ∀ insn, vm.Fetches insn → role insn.opcode = .jumps →
    ¬ (insn.a < 0 ∨ toSize insn.a ≥ vm.program.insns.length)
  moves : ∀ result final, vm.step host = .ok (result, final) →
    (vm.state.halted = true ∧ final = vm) ∨
      ∃ entry, final.state.trace = vm.state.trace ++ [entry] ∧
        entry.pc = vm.state.pc ∧ entry.trap = trapOf result ∧
        LegalMove vm result final.state.pc
  entries : ∀ before first second after,
    vm.state.trace = before ++ first :: second :: after →
      MovesTo host program before first second.pc
  returns : ∀ insn, vm.Fetches insn → insn.opcode = .ret →
    ∃ result final, vm.step host = .ok (result, final) ∧
      (result = .error .stackFault ↔ Balanced bracket vm.state.trace) ∧
      (¬ Balanced bracket vm.state.trace →
        result = .ok () ∧ ∃ before site after,
          vm.state.trace = before ++ site :: after ∧
          bracket site = some .U ∧ Balanced bracket after ∧
          final.state.pc = site.pc + 1)

/-- The call and return of the project's own jump test. -/
def callAndReturn : Program where
  insns := [
    { opcode := .loadImm, a := 0, b := 4, c := 0 },
    { opcode := .call, a := 0, b := 0, c := 0 },
    { opcode := .loadImm, a := 2, b := 7, c := 0 },
    { opcode := .trap, a := 1, b := 0, c := 0 },
    { opcode := .loadImm, a := 1, b := 42, c := 0 },
    { opcode := .ret, a := 0, b := 0, c := 0 }]
  axionPolicyText := []
  fits := by decide

end Interpreter

end T81VM.VM
