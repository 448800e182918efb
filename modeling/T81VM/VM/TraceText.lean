import T81VM.VM.Evidence

/-!
# What standard output determines

The lines of a trace differ where its entries differ, and no snapshot line
looks like one of them.  So two runs of the harness print the same text just
when they agree on the trace and on everything a snapshot shows.
-/

namespace T81VM.VM

open Tisc ProgramIo PrefixCode

/-! ## Lines of the trace -/

/-- The fields printed for a write, or none. -/
def printedWriteFields :
    Option Nat → Option Int64 → Option ValueTag → List Text
  | some reg, some value, some tag => [printedWrite reg value, tag.name]
  | _, _, _ => []

/-- The fields of a printed line. -/
def printedFields (entry : TraceEntry) : List Text :=
  Decimal.natural entry.pc :: Decimal.natural entry.opcode.ordinal ::
    (printedWriteFields entry.writeReg entry.writeValue entry.writeTag
      ++ trapFields entry.trap)

theorem traceLine_eq_intercalate {entry : TraceEntry}
    (paired : entry.WritePaired) :
    traceLine entry = (text ":").intercalate (printedFields entry) := by
  rcases WritePaired_cases paired with
    ⟨reg, value, tag⟩ | ⟨reg, value, tag, isReg, isValue, isTag⟩
  · rw [traceLine_of_bare reg value tag, printedFields, reg, value, tag]
    rfl
  · rw [traceLine_of_write isReg isValue isTag, printedFields, isReg, isValue,
      isTag]
    rfl

theorem printedWrite_inj {reg reg' : Nat} {value value' : Int64}
    (same : printedWrite reg value = printedWrite reg' value') :
    reg = reg' ∧ value = value' := by
  have clean : ∀ number, 61 ∉ Decimal.natural number :=
    fun _ => not_mem_natural rfl
  unfold printedWrite at same
  simp only [List.append_assoc] at same
  obtain ⟨regs, values⟩ := field_inj rfl (clean _) (clean _)
    (List.append_cancel_left same)
  exact ⟨Decimal.natural_injective regs,
    Int64.toInt_inj.mp (Decimal.integer_injective values)⟩

/-- A printed field has no colon. -/
theorem colon_not_mem_printedFields (entry : TraceEntry) :
    ∀ field ∈ printedFields entry, 58 ∉ field := by
  have number : ∀ value, 58 ∉ Decimal.natural value :=
    fun _ => not_mem_natural rfl
  have write : ∀ field ∈ printedWriteFields entry.writeReg entry.writeValue
      entry.writeTag, 58 ∉ field := by
    cases entry.writeReg <;> cases entry.writeValue <;>
      cases entry.writeTag <;>
      try exact fun _ member => absurd member List.not_mem_nil
    rename_i reg value tag
    have label : 58 ∉ text "write=r" ∧ 58 ∉ text "=" := by decide
    have word : 58 ∉ Decimal.integer value.toInt :=
      not_mem_integer rfl (by decide)
    have name : 58 ∉ tag.name :=
      not_mem_of_isLetter tag.name_isLetter rfl
    simp [printedWriteFields, printedWrite, label, number, word, name]
  unfold printedFields
  simp only [List.forall_mem_cons, List.forall_mem_append]
  exact ⟨number _, number _, write, trapFields_not_mem colon_outside⟩

/-- The fields printed for a write determine it. -/
theorem printedWriteFields_inj {entry other : TraceEntry}
    (paired : entry.WritePaired) (paired' : other.WritePaired)
    (same : printedWriteFields entry.writeReg entry.writeValue
        entry.writeTag =
      printedWriteFields other.writeReg other.writeValue other.writeTag) :
    entry.writeReg = other.writeReg ∧ entry.writeValue = other.writeValue ∧
      entry.writeTag = other.writeTag := by
  rcases WritePaired_cases paired with
    ⟨reg, value, tag⟩ | ⟨reg, value, tag, isReg, isValue, isTag⟩ <;>
  rcases WritePaired_cases paired' with
    ⟨reg', value', tag'⟩ | ⟨reg', value', tag', isReg', isValue', isTag'⟩
  · simp [reg, value, tag, reg', value', tag']
  · simp [reg, value, tag, isReg', isValue', isTag', printedWriteFields]
      at same
  · simp [isReg, isValue, isTag, reg', value', tag', printedWriteFields]
      at same
  · rw [isReg, isValue, isTag, isReg', isValue', isTag'] at same ⊢
    obtain ⟨writes, tags⟩ := List.cons.inj same
    obtain ⟨rfl, rfl⟩ := printedWrite_inj writes
    rw [ValueTag.name_injective (List.cons.inj tags).1]
    exact ⟨rfl, rfl, rfl⟩

/-- A write has no field or two. -/
theorem printedWriteFields_length {entry : TraceEntry} :
    (printedWriteFields entry.writeReg entry.writeValue
      entry.writeTag).length = 0 ∨
    (printedWriteFields entry.writeReg entry.writeValue
      entry.writeTag).length = 2 := by
  cases entry.writeReg <;> cases entry.writeValue <;>
    cases entry.writeTag <;> simp [printedWriteFields]

/-- A line shows its entry. -/
theorem traceLine_inj {entry other : TraceEntry}
    (paired : entry.WritePaired) (paired' : other.WritePaired)
    (same : traceLine entry = traceLine other) : entry = other := by
  rw [traceLine_eq_intercalate paired, traceLine_eq_intercalate paired']
    at same
  have fields := intercalate_inj (colon_not_mem_printedFields entry)
    (List.cons_ne_nil _ _) (colon_not_mem_printedFields other)
    (List.cons_ne_nil _ _) same
  obtain ⟨pc, afterPc⟩ := List.cons.inj fields
  obtain ⟨opcode, afterOpcode⟩ := List.cons.inj afterPc
  have lengths := congrArg List.length afterOpcode
  rw [List.length_append, List.length_append] at lengths
  have writeLength := @printedWriteFields_length entry
  have writeLength' := @printedWriteFields_length other
  have trapLength := trapFields_length entry.trap
  have trapLength' := trapFields_length other.trap
  obtain ⟨writes, traps⟩ := List.append_inj afterOpcode (by omega)
  obtain ⟨reg, value, tag⟩ := printedWriteFields_inj paired paired' writes
  have samePc := Decimal.natural_injective pc
  have sameOpcode := Opcode.ordinal_inj (Decimal.natural_injective opcode)
  have sameTrap := trapFields_injective traps
  obtain ⟨_, _, _, _, _, _⟩ := entry
  subst samePc sameOpcode reg value tag sameTrap
  rfl

/-! ## Writes in a run -/

namespace Interpreter

variable {host : Host} {program : Program} {vm final : Interpreter}
  {insn : Insn} {pc : Nat} {result : Expected}

/-- The write remembered since the last fetch is whole or absent, and so is
every recorded one. -/
structure WritesPaired (vm : Interpreter) : Prop where
  current : ∀ opcode pc trap, (vm.traceEntry opcode pc trap).WritePaired
  trace : ∀ entry ∈ vm.state.trace, entry.WritePaired

/-- An object that records what it remembers. -/
theorem WritesPaired.record {opcode : Opcode} {trap : Option Trap}
    (trace : ∀ entry ∈ vm.state.trace, entry.WritePaired)
    (current : ∀ opcode pc trap,
      (final.traceEntry opcode pc trap).WritePaired)
    (recorded : final.state.trace =
      vm.state.trace ++ [final.traceEntry opcode pc trap]) :
    final.WritesPaired := by
  refine ⟨current, ?_⟩
  rw [recorded]
  exact List.forall_mem_append.mpr
    ⟨trace, List.forall_mem_singleton.mpr (current opcode pc trap)⟩

/-- A register write is remembered whole. -/
theorem traceEntry_paired {written : Interpreter} {reg : Nat} {value : Int64}
    {tag : ValueTag} (isReg : written.currentWriteReg = some reg)
    (isValue : written.currentWriteValue = some value)
    (isTag : written.currentWriteTag = some tag) (opcode : Opcode) (pc : Nat)
    (trap : Option Trap) :
    (written.traceEntry opcode pc trap).WritePaired := by
  simp [TraceEntry.WritePaired, traceEntry, isReg, isValue, isTag]

theorem WritesPaired.transition {answer : Expected × Interpreter}
    (paired : vm.WritesPaired) (transition : Transition vm insn pc answer) :
    answer.2.WritesPaired := by
  cases transition with
  | written | madeOption | madeResult | madeEnum | madeTensor
  | stackAllocated | heapAllocated =>
      exact .record paired.trace (traceEntry_paired rfl rfl rfl) rfl
  | _ => exact .record paired.trace paired.current rfl

theorem WritesPaired.step (paired : vm.WritesPaired)
    (stepped : vm.step host = .ok (result, final)) :
    final.WritesPaired := by
  cases step_stepped stepped with
  | resting => exact paired
  | rejected | overrun => exact .record paired.trace paired.current rfl
  | executed fetches transition =>
      have begun : vm.beginInsn.WritesPaired :=
        ⟨fun _ _ _ => ⟨Iff.rfl, Iff.rfl⟩, paired.trace⟩
      exact begun.transition transition

/-- A program loaded into a new object has nothing to remember. -/
theorem writesPaired_of_loadProgram
    (image : ({} : Interpreter).loadProgram program = .ok vm) :
    vm.WritesPaired := by
  obtain ⟨policy, _, rfl⟩ := loadProgram_eq_ok.mp image
  exact ⟨fun _ _ _ => ⟨Iff.rfl, Iff.rfl⟩,
    fun _ member => absurd member List.not_mem_nil⟩

end Interpreter

variable {host host' : Host} {files files' : Text → Option Text}
  {args : List Text} {path path' : Text} {options options' : Options}
  {result result' : Expected} {final final' : Interpreter}
  {output output' : Output}

theorem Session.writesPaired
    (session : Session host files args options result final) :
    final.WritesPaired := by
  obtain ⟨names, loads, accepted, image, finished⟩ := session
  exact Interpreter.runToHalt_invariant
    (fun _ _ _ paired stepped => paired.step stepped)
    (Interpreter.writesPaired_of_loadProgram image) finished

/-! ## The trace and the snapshot -/

/-- The line of a trace entry, told by its first byte. -/
def beginsWithDigit (line : Text) : Bool :=
  line.head?.any Decimal.isDigit

theorem beginsWithDigit_traceLine (entry : TraceEntry) :
    beginsWithDigit (traceLine entry) = true := by
  have visible : traceLine entry ≠ [] := by
    unfold traceLine
    simp [Decimal.natural_ne_nil]
  obtain ⟨byte, rest, same⟩ := List.exists_cons_of_ne_nil visible
  have head : (traceLine entry).head? = some byte := by
    rw [same]
    rfl
  rw [beginsWithDigit, head]
  exact traceLine_head entry head

/-- The first lines that begin with a digit are those of the trace. -/
theorem takeWhile_traceLines (trace : List TraceEntry) (rest : List Text)
    (letters : ∀ line ∈ rest.head?, beginsWithDigit line = false) :
    (trace.map traceLine ++ rest).takeWhile beginsWithDigit =
      trace.map traceLine := by
  have digits : ∀ line ∈ trace.map traceLine,
      beginsWithDigit line = true := by
    intro line member
    obtain ⟨entry, _, rfl⟩ := List.mem_map.mp member
    exact beginsWithDigit_traceLine entry
  rw [List.takeWhile_append_of_pos digits]
  cases rest with
  | nil => rw [List.takeWhile_nil, List.append_nil]
  | cons line rest =>
      have letter := letters line rfl
      rw [List.takeWhile_cons_of_neg (by simp [letter]), List.append_nil]

/-- A snapshot begins with a letter. -/
theorem beginsWithDigit_snapshotLines (state : State) :
    ∀ line ∈ (snapshotLines state).head?, beginsWithDigit line = false := by
  intro line first
  cases first
  obtain ⟨rest, split⟩ := snapshotLine_isPrefix state
  rw [← split]
  rfl

/-- The lines of the trace end where the snapshot begins. -/
theorem outLines_inj {trace trace' : List TraceEntry} {state state' : State}
    (same : trace.map traceLine ++ snapshotLines state =
      trace'.map traceLine ++ snapshotLines state') :
    trace.map traceLine = trace'.map traceLine ∧
      snapshotLines state = snapshotLines state' := by
  have front := congrArg (List.takeWhile beginsWithDigit) same
  rw [takeWhile_traceLines _ _ (beginsWithDigit_snapshotLines state),
    takeWhile_traceLines _ _ (beginsWithDigit_snapshotLines state')] at front
  rw [front] at same
  exact ⟨front, List.append_cancel_left same⟩

/-- Lines that show their entries. -/
theorem map_traceLine_inj {trace trace' : List TraceEntry}
    (paired : ∀ entry ∈ trace, entry.WritePaired)
    (paired' : ∀ entry ∈ trace', entry.WritePaired)
    (same : trace.map traceLine = trace'.map traceLine) :
    trace = trace' := by
  induction trace generalizing trace' with
  | nil => exact (List.map_eq_nil_iff.mp same.symm).symm
  | cons entry trace induction =>
      obtain ⟨other, rest, rfl, line, lines⟩ :=
        List.map_eq_cons_iff.mp same.symm
      obtain ⟨here, later⟩ := List.forall_mem_cons.mp paired
      obtain ⟨here', later'⟩ := List.forall_mem_cons.mp paired'
      rw [traceLine_inj here here' line.symm,
        induction later later' lines.symm]

/-- The harness has the trace and the snapshot printed. -/
theorem out_of_runVmArgs
    (returned : main host files (runVmArgs path) = .ok output)
    (session : Session host files (runVmArgs path) options result final) :
    output.out = (final.state.trace.map traceLine
      ++ snapshotLines final.state).flatMap (· ++ text "\n") ∧
    ∀ line ∈ final.state.trace.map traceLine ++ snapshotLines final.state,
      10 ∉ line := by
  have printable := session.detailPrintable
  rw [session.main_eq] at returned
  cases returned
  obtain ⟨names, _, _, _, _⟩ := session
  obtain ⟨_, rfl⟩ := names_runVmArgs_iff.mp names
  refine ⟨report_out _, fun line member newline => ?_⟩
  have visible := @printable_outLines
    { optionsFrom {} runVmItems with programPath := path } final printable
      line member 10 newline
  exact absurd visible (by decide)

/-- Two runs of the harness print the same text just when they agree on the
trace and on what a snapshot shows. -/
theorem stdout_eq_iff
    (returned : main host files (runVmArgs path) = .ok output)
    (session : Session host files (runVmArgs path) options result final)
    (returned' : main host' files' (runVmArgs path') = .ok output')
    (session' : Session host' files' (runVmArgs path') options' result'
      final') :
    output.out = output'.out ↔ final.state.trace = final'.state.trace ∧
      SameSummary final.state final'.state := by
  obtain ⟨out, clean⟩ := out_of_runVmArgs returned session
  obtain ⟨out', clean'⟩ := out_of_runVmArgs returned' session'
  rw [out, out']
  constructor
  · intro same
    obtain ⟨traces, snapshots⟩ :=
      outLines_inj (terminated_inj clean clean' same)
    have summaries : snapshotSummary final.state =
        snapshotSummary final'.state := by
      rw [snapshotSummary_eq, snapshots, ← snapshotSummary_eq]
    exact ⟨map_traceLine_inj session.writesPaired.trace
      session'.writesPaired.trace traces,
      snapshotSummary_sameSummary summaries⟩
  · rintro ⟨traces, same⟩
    rw [traces, snapshotLines_congr same]

/-- The same program under two spellings. -/
theorem stdout_eq_iff_halt :
    ∃ output output' : Output, ∃ final final' : Interpreter,
      main strictHost (oneFile (text "a.t81") (text "HALT\n"))
        (runVmArgs (text "a.t81")) = .ok output ∧
      main strictHost (oneFile (text "b.t81") (text "halt 0\n"))
        (runVmArgs (text "b.t81")) = .ok output' ∧
      (output.out = output'.out ↔
        final.state.trace = final'.state.trace ∧
          SameSummary final.state final'.state) := by
  have visible : (text "a.t81").head? ≠ some '-'.toUInt8 ∧
      (text "b.t81").head? ≠ some '-'.toUInt8 := by decide
  have names : Names (runVmArgs (text "a.t81")) _ :=
    names_runVmArgs_iff.mpr ⟨⟨visible.1, by decide⟩, rfl⟩
  have names' : Names (runVmArgs (text "b.t81")) _ :=
    names_runVmArgs_iff.mpr ⟨⟨visible.2, by decide⟩, rfl⟩
  have session : Session strictHost
      (oneFile (text "a.t81") (text "HALT\n"))
      (runVmArgs (text "a.t81")) _ (.ok ()) _ :=
    .intro names rfl rfl rfl rfl
  have session' : Session strictHost
      (oneFile (text "b.t81") (text "halt 0\n"))
      (runVmArgs (text "b.t81")) _ (.ok ()) _ :=
    .intro names' rfl rfl rfl rfl
  have returned := session.main_eq
  have returned' := session'.main_eq
  exact ⟨_, _, _, _, returned, returned',
    stdout_eq_iff returned session returned' session'⟩

end T81VM.VM
