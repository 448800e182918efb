import T81VM.VM.Footprint
import T81VM.VM.Respelling

/-!
# Runs of respelled programs

What a step keeps of the correspondence, a run keeps.  So register names and
number kinds carry no meaning, and a register that a program does not name is
inert: the guest neither reads nor writes it.
-/

namespace T81VM.VM

open Tisc PartialSystem

/-! ## Programs -/

section Programs

variable {dict : Dictionary} {program other : Program}

/-- The same program in other words. -/
structure RespelledProgram (dict : Dictionary) (program other : Program) :
    Prop where
  insns : List.Forall₂ (RespelledInsn dict) program.insns other.insns
  policy : other.axionPolicyText = program.axionPolicyText

/-- Lists that correspond do so at each position. -/
theorem rel_getElem? {α β : Type} {related : α → β → Prop} {list : List α}
    {others : List β} (pairs : List.Forall₂ related list others) (idx : Nat) :
    Option.Rel related list[idx]? others[idx]? := by
  induction pairs generalizing idx with
  | nil => exact .none
  | cons here _ induction =>
      cases idx with
      | zero => exact .some here
      | succ idx => exact induction idx

theorem RespelledProgram.code
    (programs : RespelledProgram dict program other) :
    RespelledCode dict program other :=
  ⟨programs.insns.length_eq.symm, fun pc _ => rel_getElem? programs.insns pc⟩

/-- An operand that indexes a register passes the check of the validator. -/
theorem validReg_of_registerIndex {idx : Int64} {reg : Fin 243}
    (index : registerIndex idx = .ok reg) : validReg idx = true := by
  rw [validReg_iff]
  by_contra outside
  rw [registerIndex, dif_neg outside] at index
  cases index

theorem validOpcode_commonOpcode (opcode : Opcode) :
    validOpcode (commonOpcode opcode) = validOpcode opcode := by
  cases opcode <;> rfl

theorem role_commonOpcode (opcode : Opcode) :
    role (commonOpcode opcode) = role opcode := by
  cases opcode <;> rfl

/-- The validator decides alike on corresponding instructions. -/
theorem RespelledInsn.valid_eq {insn other : Insn}
    (spelled : RespelledInsn dict insn other) (size : Nat) :
    validOpcode other.opcode = validOpcode insn.opcode ∧
      validOperands size other = validOperands size insn := by
  have common := dict.common spelled.opcode
  have operands : registerOperands other.opcode =
      registerOperands insn.opcode := by
    rw [← registerOperands_commonOpcode, common, registerOperands_commonOpcode]
  have roles : role other.opcode = role insn.opcode := by
    rw [← role_commonOpcode, common, role_commonOpcode]
  constructor
  · rw [← validOpcode_commonOpcode, common, validOpcode_commonOpcode]
  · have targets : jumpsStatically insn.opcode → other.a = insn.a := by
      intro jumps
      apply spelled.literals .a
      have idle : registerOperands insn.opcode = [] := by
        revert jumps
        cases insn.opcode <;> simp [jumpsStatically, role, registerOperands]
      rw [idle]
      exact List.not_mem_nil
    rw [Bool.eq_iff_iff, validOperands_iff, validOperands_iff, operands]
    unfold jumpsStatically at targets ⊢
    rw [roles]
    constructor
    · rintro ⟨valid, jumps⟩
      refine ⟨fun operand used checked => ?_,
        fun jump => targets jump ▸ jumps jump⟩
      cases spelled.registers operand used with
      | named _ index => exact validReg_of_registerIndex index
      | outside _ _ same opcode =>
          rw [← same]
          exact valid operand used fun unchecked =>
            checked (opcode ▸ unchecked)
    · rintro ⟨valid, jumps⟩
      refine ⟨fun operand used checked => ?_,
        fun jump => (targets jump).symm ▸ jumps jump⟩
      cases spelled.registers operand used with
      | named _ _ index => exact validReg_of_registerIndex index
      | outside _ _ same opcode =>
          rw [same]
          exact valid operand used fun unchecked =>
            checked (opcode ▸ unchecked)

/-- The validator accepts both programs or neither. -/
theorem RespelledProgram.validateProgram_eq
    (programs : RespelledProgram dict program other) :
    validateProgram other = validateProgram program := by
  have step : ∀ {insns others : List Insn} (size : Nat),
      List.Forall₂ (RespelledInsn dict) insns others →
        validateInsns size others = validateInsns size insns := by
    intro insns others size pairs
    induction pairs with
    | nil => rfl
    | cons here _ induction =>
        obtain ⟨opcodes, operands⟩ := here.valid_eq size
        rw [validateInsns, validateInsns, opcodes, operands, induction]
  rw [validateProgram, validateProgram, ← programs.insns.length_eq]
  exact step _ programs.insns

end Programs

/-! ## Matching calls -/

/-- The register that an index of `set_register` names. -/
def hostRegister (idx : Int32) : Option (Fin 243) :=
  if below : idx.toInt.toNat < 243 then
    if 0 ≤ idx.toInt then some ⟨idx.toInt.toNat, below⟩ else none
  else none

/-- Calls that load corresponding programs, let them run alike, or write the
same into corresponding registers.  What the host puts into registers without
a counterpart is up to it. -/
inductive RespelledCall (dict : Dictionary) : Call → Call → Prop where
  | loadProgram {program other : Program}
      (programs : RespelledProgram dict program other) :
      RespelledCall dict (.loadProgram program) (.loadProgram other)
  | step : RespelledCall dict .step .step
  | runToHalt (maxSteps : Nat) :
      RespelledCall dict (.runToHalt maxSteps) (.runToHalt maxSteps)
  | setNamed {idx otherIdx : Int32} {reg otherReg : Fin 243}
      (here : hostRegister idx = some reg)
      (there : hostRegister otherIdx = some otherReg)
      (named : dict.names reg otherReg) (value : Int64) (tag : ValueTag) :
      RespelledCall dict (.setRegister idx value tag)
        (.setRegister otherIdx value tag)
  | setUnnamed {idx otherIdx : Int32} {reg otherReg : Fin 243}
      (here : hostRegister idx = some reg)
      (there : hostRegister otherIdx = some otherReg)
      (outside : ∀ other, ¬ dict.names reg other)
      (otherOutside : ∀ other, ¬ dict.names other otherReg)
      (value otherValue : Int64) (tag otherTag : ValueTag) :
      RespelledCall dict (.setRegister idx value tag)
        (.setRegister otherIdx otherValue otherTag)
  | setNothing {idx otherIdx : Int32} {value otherValue : Int64}
      {tag otherTag : ValueTag} (here : hostRegister idx = none)
      (there : hostRegister otherIdx = none) :
      RespelledCall dict (.setRegister idx value tag)
        (.setRegister otherIdx otherValue otherTag)

namespace Interpreter

theorem setRegister_of_some {vm : Interpreter} {idx : Int32}
    {reg : Fin 243} {value : Int64} {tag : ValueTag}
    (named : hostRegister idx = some reg) :
    vm.setRegister idx value tag = vm.writeRegister reg value tag := by
  unfold hostRegister at named
  split at named
  · rename_i below
    split at named
    · rename_i nonneg
      cases named
      rw [setRegister, dif_pos ⟨nonneg, below⟩]
    · cases named
  · cases named

theorem setRegister_of_none {vm : Interpreter} {idx : Int32}
    {value : Int64} {tag : ValueTag} (unnamed : hostRegister idx = none) :
    vm.setRegister idx value tag = vm := by
  unfold hostRegister at unnamed
  split at unnamed
  · split at unnamed
    · cases unnamed
    · rename_i negative
      rw [setRegister, dif_neg fun inRange => negative inRange.1]
  · rename_i above
    rw [setRegister, dif_neg fun inRange => above inRange.2]

/-! ## Steps -/

section Calls

variable {host : Host} {dict : Dictionary} {left right : Interpreter}
  {program other : Program}

/-- Without an instruction at the program counter no operands are quoted. -/
theorem faultOperands_of_overrun {vm : Interpreter} {pc : Nat}
    (overrun : vm.program.insns[pc]? = none) (opcode : Opcode) :
    vm.faultOperands opcode pc = (0, 0, 0) := by
  simp [faultOperands, overrun]

/-- Running off the program is reported alike. -/
theorem Respelled.overrun (related : Respelled dict left right) {pc : Nat}
    (here : left.program.insns[pc]? = none)
    (there : right.program.insns[pc]? = none) (code : Trap) :
    Agree (Respelled dict) (.ok (left.trap code .nop pc) : Outcome)
      (.ok (right.trap code .nop pc)) := by
  apply related.trap
  rw [faultOperands_of_overrun here, faultOperands_of_overrun there]
  exact ⟨dict.nop, fun _ used => absurd used List.not_mem_nil,
    fun _ _ => rfl⟩

/-- What a step forgets and counts before it executes. -/
theorem Respelled.beginInsn (related : Respelled dict left right) :
    Respelled dict left.beginInsn right.beginInsn := by
  obtain ⟨program, registers, tags, trace, payload, _⟩ := related.spelling
  obtain ⟨spelling, rfl⟩ := related.exists_spelling
  exact ⟨⟨program, registers, tags, trace, payload, .nothing⟩, rfl⟩

/-- Corresponding machines take a step alike. -/
theorem Respelled.step (related : Respelled dict left right)
    (covered : left.state.halted = false → dict.covers left.state.pc) :
    Agree (Respelled dict) (left.step host) (right.step host) := by
  obtain ⟨spelling, same⟩ := related.exists_spelling
  have pc : right.state.pc = left.state.pc := by rw [same]; rfl
  have halted : right.state.halted = left.state.halted := by rw [same]; rfl
  have preload : right.preloadTrap = left.preloadTrap := by rw [same]; rfl
  have current : ∀ {vm : Interpreter}, vm.currentOpcode =
      (vm.program.insns[vm.state.pc]?).elim .nop Insn.opcode := by
    intro vm
    unfold currentOpcode
    cases vm.program.insns[vm.state.pc]? <;> rfl
  unfold Interpreter.step
  rw [halted, preload]
  refine .ite (fun _ => ⟨rfl, related⟩) fun running => ?_
  have fetched := related.spelling.program.insns left.state.pc
    (covered (Bool.eq_false_iff.mpr running))
  rw [current, current, pc]
  generalize here : left.program.insns[left.state.pc]? = fetch
  generalize there : right.program.insns[left.state.pc]? = otherFetch
  have pairs : Option.Rel (RespelledInsn dict) fetch otherFetch := by
    rw [← here, ← there]
    exact fetched
  cases pairs with
  | none =>
      cases left.preloadTrap with
      | none => exact related.overrun here there .decodeFault
      | some code => exact related.overrun here there code
  | some spelled =>
      cases left.preloadTrap with
      | none =>
          have begun : Paired dict left.beginInsn right.beginInsn _ _ _ :=
            ⟨related.beginInsn, spelled, here, there⟩
          exact begun.execute
      | some code =>
          have pair : Paired dict left right _ _ _ :=
            ⟨related, spelled, here, there⟩
          exact pair.trap code .unknown []

theorem Respelled.halted_eq (related : Respelled dict left right) :
    left.state.halted = right.state.halted := by
  obtain ⟨spelling, rfl⟩ := related.exists_spelling
  rfl

/-- So do the loops. -/
theorem Respelled.runToHalt (total : ∀ pc, dict.covers pc)
    (related : Respelled dict left right) (maxSteps : Nat) :
    Agree (Respelled dict) (runToHalt host maxSteps left)
      (runToHalt host maxSteps right) := by
  have steps : ∀ left right, True → Respelled dict left right →
      Agree (Respelled dict) (left.step host) (right.step host) :=
    fun left right _ here => here.step fun _ => total _
  have always := @loopAlong_of_forall host (fun _ => True)
    (fun _ => trivial) maxSteps left
  exact runToHalt_agree steps (fun _ _ here => here.halted_eq) always related

/-! ## Calls -/

/-- A load of corresponding programs. -/
theorem Respelled.loadProgram (related : Respelled dict left right)
    (programs : RespelledProgram dict program other) :
    Agree (Respelled dict) (call host (.loadProgram program) left)
      (call host (.loadProgram other) right) := by
  have policies : parsePolicy other.axionPolicyText =
      parsePolicy program.axionPolicyText := by rw [programs.policy]
  cases parsed : parsePolicy program.axionPolicyText with
  | error raised =>
      have image : ∀ {loaded : Program} {vm : Interpreter},
          parsePolicy loaded.axionPolicyText = .error raised →
            vm.loadProgram loaded = .error raised := by
        intro loaded vm failed
        rw [Interpreter.loadProgram, loadProgramImage, failed]
        rfl
      rw [call, call, image parsed, image (policies.trans parsed)]
      exact ⟨rfl, related⟩
  | ok policy =>
      have states : initialState other policy =
          initialState program policy := by
        rw [initialState, initialState, programs.insns.length_eq]
      rw [call, call, loadProgram_eq_ok.mpr ⟨policy, parsed, rfl⟩,
        loadProgram_eq_ok.mpr ⟨policy, policies.trans parsed, rfl⟩, states,
        programs.validateProgram_eq]
      have write := related.spelling.write
      refine ⟨rfl, ⟨programs.code, fun _ _ _ => rfl, fun _ _ _ => rfl, .nil, .none,
        write⟩, rfl⟩

/-- Corresponding calls are answered alike. -/
theorem Respelled.call {request otherRequest : Call}
    (total : ∀ pc, dict.covers pc) (related : Respelled dict left right)
    (matching : RespelledCall dict request otherRequest) :
    Agree (Respelled dict) (call host request left)
      (call host otherRequest right) := by
  cases matching with
  | loadProgram programs => exact related.loadProgram programs
  | step =>
      refine (related.step fun _ => total _).andThen fun _ _ _ _ next => ?_
      exact ⟨rfl, next⟩
  | runToHalt maxSteps =>
      refine (related.runToHalt total maxSteps).andThen fun _ _ _ _ next => ?_
      exact ⟨rfl, next⟩
  | setNamed here there named value tag =>
      rw [Interpreter.call, Interpreter.call, setRegister_of_some here,
        setRegister_of_some there]
      exact ⟨rfl, related.writeNamed named value tag⟩
  | setUnnamed here there outside otherOutside value otherValue tag otherTag =>
      rw [Interpreter.call, Interpreter.call, setRegister_of_some here,
        setRegister_of_some there]
      exact ⟨rfl, related.writeUnnamed outside otherOutside value otherValue
        tag otherTag⟩
  | setNothing here there =>
      rw [Interpreter.call, Interpreter.call, setRegister_of_none here,
        setRegister_of_none there]
      exact ⟨rfl, related⟩

/-- Two new objects correspond. -/
theorem respelled_new : Respelled dict {} {} :=
  ⟨⟨⟨rfl, fun _ _ => .none⟩, fun _ _ _ => rfl, fun _ _ _ => rfl, .nil, .none, .nothing⟩,
    rfl⟩

/-- Registers and number kinds carry no meaning: corresponding calls on new
objects, loads of respelled programs among them, get the same answers and
leave corresponding machines. -/
theorem run_respelled {calls others : List Call}
    (total : ∀ pc, dict.covers pc)
    (matching : List.Forall₂ (RespelledCall dict) calls others) :
    Agree (Respelled dict) (run (Interpreter.call host) calls {})
      (run (Interpreter.call host) others {}) :=
  run_agree_forall₂ (fun _ _ _ _ here related => related.call total here)
    matching respelled_new

end Calls

/-- Five doubled as a float, through registers 0, 1 and 2. -/
def doubledFloat : Program where
  insns := [
    { opcode := .loadImm, a := 0, b := 5, c := 0 },
    { opcode := .fAdd, a := 1, b := 0, c := 0 },
    { opcode := .i2F, a := 2, b := 1, c := 0 },
    { opcode := .halt, a := 0, b := 0, c := 0 }]
  axionPolicyText := []
  fits := by decide

/-- The same as an integer, through registers 2, 0 and 7. -/
def doubledInteger : Program where
  insns := [
    { opcode := .loadImm, a := 2, b := 5, c := 0 },
    { opcode := .add, a := 0, b := 2, c := 2 },
    { opcode := .mov, a := 7, b := 0, c := 0 },
    { opcode := .halt, a := 0, b := 0, c := 0 }]
  axionPolicyText := []
  fits := by decide

/-- The dictionary of the two programs. -/
def doubledNames : Dictionary where
  names reg other := reg.val = 0 ∧ other.val = 2 ∨
    reg.val = 1 ∧ other.val = 0 ∨ reg.val = 2 ∧ other.val = 7
  unique := by
    constructor
    · intro one other shared named named'
      apply Fin.ext
      omega
    · intro shared one other named named'
      apply Fin.ext
      omega
  twins opcode other := commonOpcode other = commonOpcode opcode
  common := id
  nop := rfl
  covers _ := True

theorem run_respelled_doubled :
    Agree (Respelled doubledNames)
      (run (call strictHost) [.loadProgram doubledFloat, .runToHalt 9] {})
      (run (call strictHost) [.loadProgram doubledInteger, .runToHalt 9]
        {}) := by
  have first : doubledNames.names 0 2 := .inl ⟨rfl, rfl⟩
  have second : doubledNames.names 1 0 := .inr (.inl ⟨rfl, rfl⟩)
  have third : doubledNames.names 2 7 := .inr (.inr ⟨rfl, rfl⟩)
  have programs : RespelledProgram doubledNames doubledFloat
      doubledInteger := by
    refine ⟨.cons ⟨rfl, ?_, ?_⟩ (.cons ⟨rfl, ?_, ?_⟩
      (.cons ⟨rfl, ?_, ?_⟩ (.cons ⟨rfl, ?_, ?_⟩ .nil))), rfl⟩
    · intro operand used
      cases operand
      · exact .named first rfl rfl
      · simp [registerOperands] at used
      · simp [registerOperands] at used
    · intro operand
      cases operand <;> simp [registerOperands, operandOf]
    · intro operand used
      cases operand
      · exact .named second rfl rfl
      · exact .named first rfl rfl
      · exact .named first rfl rfl
    · intro operand
      cases operand <;> simp [registerOperands, operandOf]
    · intro operand used
      cases operand
      · exact .named third rfl rfl
      · exact .named second rfl rfl
      · simp [registerOperands] at used
    · intro operand
      cases operand <;> simp [registerOperands, operandOf]
    · intro operand used
      cases operand <;> simp [registerOperands] at used
    · intro operand
      cases operand <;> simp [operandOf]
  exact run_respelled (fun _ => trivial) (.cons (.loadProgram programs)
    (.cons (.runToHalt 9) .nil))

/-! ## Registers without a name -/

section Inert

variable {host : Host} {program : Program} {vm final : Interpreter}
  {reg : Fin 243} {result : Expected}

/-- Some instruction of the program names the register. -/
def NamesRegister (program : Program) (reg : Fin 243) : Prop :=
  ∃ insn ∈ program.insns, ∃ operand ∈ registerOperands insn.opcode,
    registerIndex (operandOf insn operand) = .ok reg

/-- A named register corresponds to itself. -/
def namedRegisters (program : Program) : Dictionary where
  names reg other := reg = other ∧ NamesRegister program reg
  unique := by
    constructor
    · rintro one other shared ⟨rfl, _⟩ ⟨rfl, _⟩
      rfl
    · rintro shared one other ⟨rfl, _⟩ ⟨rfl, _⟩
      rfl
  twins := Eq
  common := commonOpcode_congr
  nop := rfl
  covers _ := True

/-- A program is its own respelling. -/
theorem respelledProgram_self :
    RespelledProgram (namedRegisters program) program program := by
  refine ⟨List.forall₂_same.mpr fun insn member => ⟨rfl, ?_, fun _ _ => rfl⟩,
    rfl⟩
  intro operand used
  cases index : registerIndex (operandOf insn operand) with
  | ok reg =>
      exact .named ⟨rfl, insn, member, operand, used, index⟩ index index
  | error reason => exact .outside reason index rfl rfl

/-- The instructions that assign a register name it in operand `a`. -/
theorem mem_registerOperands_of_assigns {opcode : Opcode}
    (assigned : assigns opcode = true) : .a ∈ registerOperands opcode := by
  cases opcode <;> first | decide | cases assigned

/-- The guest leaves an unnamed register alone. -/
theorem step_cells_of_unnamed (installed : Installed program vm)
    (unnamed : ¬ NamesRegister program reg)
    (stepped : vm.step host = .ok (result, final)) :
    final.cells reg = vm.cells reg := by
  cases step_stepped stepped with
  | resting | rejected | overrun => rfl
  | @executed insn answer fetches transition =>
      by_contra changed
      obtain ⟨index, assigned⟩ :=
        registers_of_transition ⟨rfl, rfl, rfl⟩ transition changed
      exact unnamed ⟨insn, installed.member fetches, .a,
        mem_registerOperands_of_assigns assigned, index⟩

/-- What a call of the host leaves in a register that no instruction
names. -/
def hostCell (reg : Fin 243) (cell : Int64 × ValueTag) :
    Call → Int64 × ValueTag
  | .setRegister idx value tag =>
      if hostRegister idx = some reg then (value, tag) else cell
  | .loadProgram _ | .step | .runToHalt _ => cell

theorem call_cells_of_unnamed {request : Call} {reply : Reply}
    (driving : request.driving) (installed : Installed program vm)
    (unnamed : ¬ NamesRegister program reg)
    (answered : call host request vm = .ok (reply, final)) :
    Installed program final ∧
      final.cells reg = hostCell reg (vm.cells reg) request := by
  have kept : ∀ middle result after, Installed program middle ∧
      middle.cells reg = vm.cells reg →
        middle.step host = .ok (result, after) →
          Installed program after ∧ after.cells reg = vm.cells reg := by
    rintro middle result after ⟨here, same⟩ stepped
    exact ⟨here.step stepped,
      (step_cells_of_unnamed here unnamed stepped).trans same⟩
  cases request with
  | loadProgram => exact driving.elim
  | step =>
      obtain ⟨result, stepped, _⟩ := call_step_eq_ok.mp answered
      exact kept vm result final ⟨installed, rfl⟩ stepped
  | runToHalt maxSteps =>
      obtain ⟨result, finished, _⟩ := call_runToHalt_eq_ok.mp answered
      exact runToHalt_invariant kept ⟨installed, rfl⟩ finished
  | setRegister idx value tag =>
      cases answered
      refine ⟨installed.setRegister, ?_⟩
      cases named : hostRegister idx with
      | none =>
          rw [setRegister_of_none named, hostCell, named, if_neg (by simp)]
      | some other =>
          rw [setRegister_of_some named, hostCell, named]
          by_cases same : other = reg
          · subst same
            simp [cells, writeRegister, recordWrite, assignRegister]
          · have apart : reg ≠ other := fun equal => same equal.symm
            simp [cells, writeRegister, recordWrite, assignRegister, same,
              apart]

/-- A register without a name holds what the host put there last. -/
theorem run_cells_of_unnamed {calls : List Call} {replies : List Reply}
    (driving : ∀ request ∈ calls, request.driving)
    (installed : Installed program vm)
    (unnamed : ¬ NamesRegister program reg)
    (finished : run (call host) calls vm = .ok (replies, final)) :
    final.cells reg = calls.foldl (hostCell reg) (vm.cells reg) := by
  induction calls generalizing vm replies with
  | nil =>
      cases finished
      rfl
  | cons request calls induction =>
      obtain ⟨reply, middle, rest, answered, tail, _⟩ :=
        run_cons_eq_ok.mp finished
      obtain ⟨here, later⟩ := List.forall_mem_cons.mp driving
      obtain ⟨kept, cell⟩ :=
        call_cells_of_unnamed here installed unnamed answered
      rw [List.foldl_cons, ← cell]
      exact induction later kept tail

/-- Two calls that differ in what they put into registers without a name. -/
inductive SameButUnnamed (program : Program) : Call → Call → Prop where
  | same (request : Call) (driving : request.driving) :
      SameButUnnamed program request request
  | unnamed {idx otherIdx : Int32} {reg otherReg : Fin 243}
      (here : hostRegister idx = some reg)
      (there : hostRegister otherIdx = some otherReg)
      (outside : ¬ NamesRegister program reg)
      (otherOutside : ¬ NamesRegister program otherReg)
      (value otherValue : Int64) (tag otherTag : ValueTag) :
      SameButUnnamed program (.setRegister idx value tag)
        (.setRegister otherIdx otherValue otherTag)

theorem SameButUnnamed.respelled {request otherRequest : Call}
    (matching : SameButUnnamed program request otherRequest) :
    RespelledCall (namedRegisters program) request otherRequest := by
  have alone : ∀ {reg : Fin 243}, ¬ NamesRegister program reg →
      (∀ other, ¬ (namedRegisters program).names reg other) ∧
        ∀ other, ¬ (namedRegisters program).names other reg := by
    intro reg outside
    refine ⟨fun other named => outside named.2, ?_⟩
    rintro other ⟨rfl, named⟩
    exact outside named
  cases matching with
  | same _ driving =>
      cases request with
      | loadProgram => exact driving.elim
      | step => exact .step
      | runToHalt maxSteps => exact .runToHalt maxSteps
      | setRegister idx value tag =>
          cases named : hostRegister idx with
          | none => exact .setNothing named named
          | some reg =>
              by_cases known : NamesRegister program reg
              · have self : (namedRegisters program).names reg reg :=
                  ⟨rfl, known⟩
                exact .setNamed named named self value tag
              · exact .setUnnamed named named (alone known).1 (alone known).2
                  value value tag tag
  | unnamed here there outside otherOutside =>
      exact .setUnnamed here there (alone outside).1 (alone otherOutside).2
        _ _ _ _

/-- A register that the program does not name is inert.  The guest leaves in
it what the host put there last, and calls that differ only in what they put
there are answered alike and leave machines that differ only there. -/
structure Inert (host : Host) (program : Program) (calls others : List Call) :
    Prop where
  answers : Agree (Respelled (namedRegisters program))
    (run (call host) (.loadProgram program :: calls) {})
    (run (call host) (.loadProgram program :: others) {})
  keeps : ∀ loaded replies final,
    ({} : Interpreter).loadProgram program = .ok loaded →
      run (call host) calls loaded = .ok (replies, final) →
        ∀ reg, ¬ NamesRegister program reg →
          final.cells reg = calls.foldl (hostCell reg) (0, .int)

theorem unnamed_inert {calls others : List Call}
    (matching : List.Forall₂ (SameButUnnamed program) calls others) :
    Inert host program calls others := by
  have driving : ∀ request ∈ calls, request.driving := by
    induction matching with
    | nil => exact fun _ member => absurd member List.not_mem_nil
    | cons here _ induction =>
        refine List.forall_mem_cons.mpr ⟨?_, induction⟩
        cases here with
        | same _ driving => exact driving
        | unnamed => trivial
  constructor
  · apply run_respelled fun _ => trivial
    refine .cons (.loadProgram respelledProgram_self) ?_
    exact matching.imp fun _ _ => SameButUnnamed.respelled
  · intro loaded replies final image finished reg unnamed
    have loads : Loads program loaded := ⟨{}, image⟩
    have zero : loaded.cells reg = (0, .int) := by
      obtain ⟨policy, same⟩ := loads.state_eq
      rw [cells, same]
      rfl
    rw [← zero]
    exact run_cells_of_unnamed driving loads.installed unnamed finished

end Inert

/-- The doubling names registers 0, 1 and 2 only. -/
theorem unnamed_inert_doubled :
    Inert strictHost doubledFloat
      [.setRegister 3 8 .int, .runToHalt 9]
      [.setRegister 4 9 .optionHandle, .runToHalt 9] := by
  have outside : ∀ reg : Fin 243, reg = 3 ∨ reg = 4 →
      ¬ NamesRegister doubledFloat reg := by
    unfold NamesRegister
    rintro reg (rfl | rfl) <;> decide
  exact unnamed_inert (.cons (.unnamed rfl rfl (outside 3 (.inl rfl))
    (outside 4 (.inr rfl)) 8 9 .int .optionHandle)
    (.cons (.same (.runToHalt 9) trivial) .nil))

end Interpreter

end T81VM.VM
