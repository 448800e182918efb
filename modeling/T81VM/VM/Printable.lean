import T81VM.VM.Main
import T81VM.VM.TrapDetails

/-!
# The lines of the output

Everything a run prints is lines of printable ASCII: a tool that breaks them
at other places, or that takes them for binary data, sees the same lines.
-/

namespace T81VM.VM

open Tisc ProgramIo

/-! ## Printable bytes -/

def isPrintable (byte : UInt8) : Bool :=
  32 ≤ byte && byte ≤ 126

def Printable (line : Text) : Prop :=
  ∀ byte ∈ line, isPrintable byte = true

instance (line : Text) : Decidable (Printable line) :=
  inferInstanceAs (Decidable (∀ byte ∈ line, isPrintable byte = true))

theorem printable_append {first second : Text} :
    Printable (first ++ second) ↔ Printable first ∧ Printable second :=
  List.forall_mem_append

theorem Printable.oneLine {line : Text} (printable : Printable line) :
    OneLine line := by
  apply oneLine_of_not_mem
  intro member
  exact absurd (printable 10 member) (by decide)

theorem printable_natural (number : Nat) :
    Printable (Decimal.natural number) := by
  intro byte member
  have digit := Decimal.natural_isDigit number byte member
  simp only [Decimal.isDigit, isPrintable, Bool.and_eq_true,
    decide_eq_true_iff, UInt8.le_iff_toNat_le, UInt8.reduceToNat]
    at digit ⊢
  omega

theorem printable_integer (number : Int) :
    Printable (Decimal.integer number) := by
  unfold Decimal.integer
  split
  · exact List.forall_mem_cons.mpr ⟨rfl, printable_natural _⟩
  · exact printable_natural _

theorem printable_padded (width number : Nat) :
    Printable (Hexadecimal.padded width number) := by
  intro byte member
  have digit := Hexadecimal.padded_isDigit width number byte member
  simp only [Hexadecimal.isDigit, isPrintable, Bool.or_eq_true,
    Bool.and_eq_true, decide_eq_true_iff, UInt8.le_iff_toNat_le,
    UInt8.reduceToNat] at digit ⊢
  omega

theorem printable_of_isLetter {name : Text}
    (letters : ∀ byte ∈ name, isLetter byte = true) : Printable name := by
  intro byte member
  have letter := letters byte member
  simp only [isLetter, isPrintable, Bool.or_eq_true, Bool.and_eq_true,
    decide_eq_true_iff, UInt8.le_iff_toNat_le, UInt8.reduceToNat]
    at letter ⊢
  omega

theorem printable_escapePayloadDetail {detail : Text}
    (printable : Printable detail) :
    Printable (escapePayloadDetail detail) := by
  rw [escapePayloadDetail_eq_flatMap]
  intro byte member
  obtain ⟨ch, inside, escaped⟩ := List.mem_flatMap.mp member
  have visible := printable ch inside
  rcases escapeChar_cases ch with
    ⟨_, form⟩ | ⟨_, form⟩ | ⟨_, _, _, form⟩ <;>
  rw [form] at escaped
  · rcases List.mem_pair.mp escaped with rfl | rfl
    · rfl
    · exact visible
  · rcases List.mem_pair.mp escaped with rfl | rfl <;> rfl
  · rw [List.mem_singleton.mp escaped]
    exact visible

/-! ## Printed lines -/

theorem printable_traceLine (entry : TraceEntry) :
    Printable (traceLine entry) := by
  have name : ∀ trap : Trap, Printable trap.name :=
    fun trap => printable_of_isLetter trap.name_isLetter
  have tagName : ∀ tag : ValueTag, Printable tag.name :=
    fun tag => printable_of_isLetter tag.name_isLetter
  have labels : Printable (text ":") ∧ Printable (text "=") ∧
      Printable (text ":write=r") ∧ Printable (text ":trap=") := by decide
  obtain ⟨colon, equals, write, trapLabel⟩ := labels
  have fields : ∀ (reg : Nat) (value : Int64) (tag : ValueTag),
      Printable (text ":write=r" ++ Decimal.natural reg ++ text "="
        ++ Decimal.integer value.toInt ++ text ":" ++ tag.name) := by
    intro reg value tag
    simp only [printable_append]
    exact ⟨⟨⟨⟨⟨write, printable_natural _⟩, equals⟩, printable_integer _⟩,
      colon⟩, tagName _⟩
  have nothing : Printable [] := by decide
  unfold traceLine
  simp only [printable_append]
  refine ⟨⟨⟨⟨printable_natural _, colon⟩, printable_natural _⟩, ?_⟩, ?_⟩
  · cases entry.writeReg <;> cases entry.writeValue <;>
      cases entry.writeTag <;>
      first
      | exact nothing
      | exact fields _ _ _
  · cases entry.trap with
    | none => exact nothing
    | some trap => exact printable_append.mpr ⟨trapLabel, name trap⟩

theorem printable_payloadLine {payload : TrapPayload}
    (detail : Printable payload.detail) :
    Printable (payloadLine payload) := by
  have trap : Printable payload.trap.name :=
    printable_of_isLetter payload.trap.name_isLetter
  have segment : Printable payload.segment.name :=
    printable_of_isLetter payload.segment.name_isLetter
  have escaped := printable_escapePayloadDetail detail
  have number := printable_natural
  have operand := printable_integer
  unfold payloadLine
  simp only [List.append_assoc, printable_append]
  exact ⟨by decide, by decide, trap, by decide, number _, by decide,
    number _, by decide, operand _, by decide, operand _, by decide,
    operand _, by decide, segment, by decide, escaped, by decide⟩

theorem printable_snapshotLine (state : State) :
    Printable (snapshotLine state) := by
  have number := printable_natural
  have tierLabel : Printable (text " policy_tier=") := by decide
  unfold snapshotLine
  simp only [List.append_assoc, printable_append]
  refine ⟨by decide, number _, by decide, number _, by decide, number _, ?_⟩
  cases state.policy with
  | none => decide
  | some policy =>
      exact printable_append.mpr ⟨tierLabel, printable_integer _⟩

theorem printable_registersLine (registers : RegisterFile Int64) :
    Printable (registersLine registers) := by
  have labels : Printable (text " r") ∧ Printable (text "=") := by decide
  unfold registersLine
  refine printable_append.mpr ⟨by decide, ?_⟩
  intro byte member
  obtain ⟨i, _, cell⟩ := List.mem_flatMap.mp member
  have printable : Printable (text " r" ++ Decimal.natural i ++ text "="
      ++ Decimal.integer (registers i).toInt) := by
    simp only [printable_append]
    exact ⟨⟨⟨labels.1, printable_natural _⟩, labels.2⟩, printable_integer _⟩
  exact printable byte cell

theorem printable_stateHashLine (state : State) :
    Printable (stateHashLine state) := by
  unfold stateHashLine
  exact printable_append.mpr ⟨by decide, printable_padded _ _⟩

/-! ## The details of a run -/

namespace Interpreter

variable {host : Host} {program : Program} {vm final : Interpreter}
  {result : Expected}

/-- The detail on record is printable. -/
def DetailPrintable (vm : Interpreter) : Prop :=
  ∀ payload, vm.state.lastTrapPayload = some payload →
    Printable payload.detail

theorem printable_trapDetails {opcode : Opcode} {detail : Text}
    (quoted : detail ∈ trapDetails opcode) : Printable detail := by
  cases opcode with
  | undefined =>
      have silent : detail ∈ [[]] := quoted
      rw [List.mem_singleton.mp silent]
      decide
  | _ => revert detail; decide

/-- A trap puts a printable detail on record. -/
theorem detailPrintable_of_trap {code : Trap}
    (stepped : vm.step host = .ok (.error code, final)) :
    final.DetailPrintable := by
  have recorded : ∃ payload, final.state.lastTrapPayload = some payload ∧
      Printable payload.detail := by
    have silent : Printable [] := by decide
    cases step_stepped stepped with
    | rejected | overrun => exact ⟨_, rfl, silent⟩
    | executed fetches =>
        rw [step_of_fetches fetches] at stepped
        obtain ⟨payload, recorded, quoted⟩ :=
          execute_quotes code final stepped
        exact ⟨payload, recorded, printable_trapDetails quoted⟩
  obtain ⟨payload, recorded, printable⟩ := recorded
  intro other again
  rw [recorded] at again
  cases again
  exact printable

theorem DetailPrintable.step (printable : vm.DetailPrintable)
    (stepped : vm.step host = .ok (result, final)) :
    final.DetailPrintable := by
  cases result with
  | error code => exact detailPrintable_of_trap stepped
  | ok success =>
      intro payload recorded
      cases step_trapRecord stepped with
      | rests => exact printable payload recorded
      | halts fetches opcode halted cleared =>
          rw [cleared] at recorded
          cases recorded
      | goesOn fetches opcode running kept =>
          rw [kept] at recorded
          exact printable payload recorded

theorem Loads.detailPrintable (loads : Loads program vm) :
    vm.DetailPrintable := by
  obtain ⟨policy, same⟩ := loads.state_eq
  intro payload recorded
  rw [same] at recorded
  cases recorded

end Interpreter

variable {host : Host} {files : Text → Option Text} {args : List Text}
  {options : Options} {output : Output} {result : Expected}
  {final : Interpreter}

theorem Session.detailPrintable
    (session : Session host files args options result final) :
    final.DetailPrintable := by
  obtain ⟨names, loads, accepted, image, finished⟩ := session
  have loaded : Interpreter.Loads _ _ := ⟨_, image⟩
  exact Interpreter.runToHalt_invariant
    (fun _ _ _ printable stepped => printable.step stepped)
    loaded.detailPrintable finished

/-! ## The lines of a session -/

/-- The lines of a report on standard output. -/
def outLines (options : Options) (state : State) : List Text :=
  (if options.emitTrace || !options.emitSnapshot then
      state.trace.map traceLine
    else [])
    ++ (if options.emitSnapshot then snapshotLines state else [])

theorem report_out (state : State) :
    (report options result state).out =
      (outLines options state).flatMap (· ++ text "\n") := by
  have whole : (report options result state).out =
      printedState options state := rfl
  rw [whole, printedState, outLines, List.flatMap_append]
  cases options.emitTrace <;> cases options.emitSnapshot <;>
    simp [printTrace_eq, snapshotSummary_eq]

theorem printable_snapshotLines
    (printable : final.DetailPrintable) :
    ∀ line ∈ snapshotLines final.state, Printable line := by
  have payloads : ∀ line ∈ trapPayloadLines final.state, Printable line := by
    intro line member
    obtain ⟨payload, recorded, rfl⟩ := List.mem_map.mp member
    exact printable_payloadLine
      (printable payload (Option.mem_toList.mp recorded))
  unfold snapshotLines
  simp only [List.forall_mem_cons, List.forall_mem_append]
  exact ⟨printable_snapshotLine _, printable_registersLine _, payloads,
    printable_stateHashLine _, fun _ member => absurd member List.not_mem_nil⟩

theorem printable_outLines (printable : final.DetailPrintable) :
    ∀ line ∈ outLines options final.state, Printable line := by
  intro line member
  rcases List.mem_append.mp member with trace | snapshot
  · split at trace
    · obtain ⟨entry, _, rfl⟩ := List.mem_map.mp trace
      exact printable_traceLine entry
    · cases trace
  · split at snapshot
    · exact printable_snapshotLines printable line snapshot
    · cases snapshot

theorem printable_errLines (printable : final.DetailPrintable) :
    ∀ line ∈ errLines options result final.state, Printable line := by
  intro line member
  rcases List.mem_append.mp member with marker | fault
  · unfold markerLines at marker
    split at marker
    · rw [List.mem_singleton.mp marker]
      decide
    · cases marker
  cases result with
  | ok => cases fault
  | error code =>
      rcases List.mem_cons.mp fault with rfl | line
      · exact printable_append.mpr
          ⟨by decide, printable_of_isLetter code.name_isLetter⟩
      · obtain ⟨payload, recorded, rfl⟩ := List.mem_map.mp line
        exact printable_payloadLine
          (printable payload (Option.mem_toList.mp recorded))

/-- The lines on standard output are those of the report. -/
theorem getlines_report_out (printable : final.DetailPrintable) :
    getlines (report options result final.state).out =
      outLines options final.state := by
  rw [report_out, getlines_flatMap fun line member =>
    (printable_outLines printable line member).oneLine]

/-- Both streams are lines of printable ASCII. -/
structure PlainOutput (output : Output) : Prop where
  out : ∃ lines : List Text, (∀ line ∈ lines, Printable line) ∧
    output.out = lines.flatMap (· ++ text "\n")
  err : ∃ lines : List Text, (∀ line ∈ lines, Printable line) ∧
    output.err = lines.flatMap (· ++ text "\n")

/-- Whatever is run, what it prints is plain text. -/
theorem session_plainOutput (returned : main host files args = .ok output)
    (session : Session host files args options result final) :
    PlainOutput output := by
  have printable := session.detailPrintable
  rw [session.main_eq] at returned
  cases returned
  exact ⟨⟨_, printable_outLines printable, report_out _⟩,
    ⟨_, printable_errLines printable, report_err _⟩⟩

theorem session_plainOutput_trap :
    ∃ output, main strictHost (oneFile (text "trap.t81") (text "TRAP\n"))
        [text "--snapshot", text "trap.t81"] = .ok output ∧
      PlainOutput output := by
  have names : Names [text "--snapshot", text "trap.t81"] _ :=
    names_iff.mpr ⟨rfl, by decide⟩
  have session : Session strictHost
      (oneFile (text "trap.t81") (text "TRAP\n"))
      [text "--snapshot", text "trap.t81"] _ _ _ :=
    .intro names rfl rfl rfl rfl
  have returned := session.main_eq
  exact ⟨_, returned, session_plainOutput returned session⟩

end T81VM.VM
