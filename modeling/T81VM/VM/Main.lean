import T81VM.ProgramIo.TextV1
import T81VM.VM.CommandLine
import T81VM.VM.LastTrap
import T81VM.VM.PrintTrace
import T81VM.VM.Snapshot
import T81VM.VM.TrapRecord

/-!
# The command

`main` reads its arguments, loads a program file into a new machine, runs it
and prints what was asked for.  Its exit code, its standard output and its
standard error tell how the run ended.
-/

namespace T81VM.VM

open Tisc ProgramIo

/-! ## The command and its output -/

/-- What a process writes and returns. -/
structure Output where
  out : Text := []
  err : Text := []
  code : Nat := 0
  deriving DecidableEq

/-- Why a process does not return from `main`. -/
inductive Abort where
  | threw (raised : StdException)
  | stuck (reason : Stuck)
  deriving DecidableEq

/-- One turn of the loop that skips leading spaces: whether a visible byte
was seen, and what was kept. -/
def keepVisible (kept : Bool × Text) (ch : UInt8) : Bool × Text :=
  if !kept.1 && isSpace ch then kept else (true, kept.2 ++ [ch])

def canonicalPassthrough (input : Text) : Text :=
  (input.foldl keepVisible (false, [])).2.rdropWhile isSpace

/-- The value behind one of the canonicalisation flags. -/
def canonicalArgument : List Text → Option Text
  | [flag, value] =>
      if flag = text "--canonical-bigint"
          ∨ flag = text "--canonical-fraction"
          ∨ flag = text "--canonical-tensor" then some value
      else none
  | _ => none

def usageText : Text :=
  text "usage: t81vm [--trace] [--snapshot] [--max-steps N] "
    ++ text "[--mode interpreter|accelerated-preview] "
    ++ text "<program.t81vm|program.tisc.json>\n"

def usage : Output where
  err := usageText
  code := 2

/-- The line that announces the preview mode. -/
def modeMarker (mode : Text) : Text :=
  if mode = text "accelerated-preview" then
    text "MODE accelerated-preview (preview): using interpreter backend"
      ++ text "\n"
  else []

/-- What is reported of a run that failed. -/
def faultReport (state : State) : Expected → Text
  | .ok () => []
  | .error code =>
      let payloadLine := trapPayloadSummaryLine state
      text "FAULT " ++ code.name ++ text "\n"
        ++ (if payloadLine.isEmpty then [] else payloadLine ++ text "\n")

/-- What is printed of the final state; the trace is the default. -/
def printedState (options : Options) (state : State) : Text :=
  let emitTrace := options.emitTrace || !options.emitSnapshot
  (if emitTrace then printTrace state else [])
    ++ (if options.emitSnapshot then snapshotSummary state else [])

/-- The output of a finished run. -/
def report (options : Options) (result : Expected) (state : State) :
    Output where
  out := printedState options state
  err := modeMarker options.mode ++ faultReport state result
  code := if result = .ok () then 0 else 1

/-- Load the program file and run it. -/
def runProgram (host : Host) (content : Option Text) (options : Options) :
    Except Abort Output :=
  match loadProgramFromFile content options.programPath with
  | .error raised => .error (.threw raised)
  | .ok loaded =>
      if loaded.ok = false then
        .ok { err := text "FAULT ParseError: " ++ loaded.error ++ text "\n",
              code := 1 }
      else
        match ({} : Interpreter).loadProgram loaded.program with
        | .error raised => .error (.threw raised)
        | .ok vm =>
            match Interpreter.runToHalt host options.maxSteps vm with
            | .error reason => .error (.stuck reason)
            | .ok (result, final) => .ok (report options result final.state)

/-- `main`, for the arguments behind the program name and the contents of the
files that can be opened. -/
def main (host : Host) (files : Text → Option Text) (args : List Text) :
    Except Abort Output :=
  if args.isEmpty then .ok usage
  else
    match canonicalArgument args with
    | some value => .ok { out := canonicalPassthrough value ++ text "\n" }
    | none =>
        match readArguments args {} with
        | none => .ok usage
        | some options =>
            if options.programPath.isEmpty then .ok usage
            else runProgram host (files options.programPath) options

/-! ## How the command ends -/

/-- The arguments name a file. -/
structure Names (args : List Text) (options : Options) : Prop where
  written : Written {} args options
  named : options.programPath ≠ []

/-- The arguments name a file that holds a program, and the program is run to
this result and this final state. -/
inductive Session (host : Host) (files : Text → Option Text)
    (args : List Text) (options : Options) (result : Expected)
    (final : Interpreter) : Prop where
  | intro {loaded : ProgramLoadResult} {vm : Interpreter}
      (names : Names args options)
      (loads : loadProgramFromFile (files options.programPath)
        options.programPath = .ok loaded)
      (accepted : loaded.ok = true)
      (image : ({} : Interpreter).loadProgram loaded.program = .ok vm)
      (finished : Interpreter.runToHalt host options.maxSteps vm =
        .ok (result, final))

/-- The arguments name a file that holds no program. -/
inductive Unloadable (files : Text → Option Text) (args : List Text)
    (error : Text) : Prop where
  | intro {options : Options} {loaded : ProgramLoadResult}
      (names : Names args options)
      (loads : loadProgramFromFile (files options.programPath)
        options.programPath = .ok loaded)
      (refused : loaded.ok = false) (same : loaded.error = error)

/-- The outputs of the command. -/
inductive Ends (host : Host) (files : Text → Option Text)
    (args : List Text) : Output → Prop where
  | canonical {value : Text} (flagged : canonicalArgument args = some value) :
      Ends host files args { out := trim value ++ text "\n" }
  | misused (unflagged : canonicalArgument args = none)
      (unnamed : ∀ options, ¬ Names args options) :
      Ends host files args usage
  | unloadable {error : Text} (refused : Unloadable files args error) :
      Ends host files args
        { err := text "FAULT ParseError: " ++ error ++ text "\n", code := 1 }
  | ran {options : Options} {result : Expected} {final : Interpreter}
      (session : Session host files args options result final) :
      Ends host files args (report options result final.state)

variable {host : Host} {files : Text → Option Text} {args : List Text}
  {options : Options} {output : Output} {result : Expected}
  {final : Interpreter}

/-- Behind a visible byte everything is kept. -/
theorem foldl_keepVisible (rest out : Text) :
    rest.foldl keepVisible (true, out) = (true, out ++ rest) := by
  induction rest generalizing out with
  | nil => rw [List.foldl_nil, List.append_nil]
  | cons ch rest induction =>
      rw [List.foldl_cons, List.append_cons]
      exact induction (out ++ [ch])

/-- The two loops trim like the loader. -/
theorem canonicalPassthrough_eq_trim (input : Text) :
    canonicalPassthrough input = trim input := by
  have skips : ∀ rest : Text, (rest.foldl keepVisible (false, [])).2 =
      rest.dropWhile isSpace := by
    intro rest
    induction rest with
    | nil => rfl
    | cons ch rest induction =>
        rw [List.foldl_cons, keepVisible]
        by_cases space : isSpace ch = true
        · simpa [space] using induction
        · simp [space, foldl_keepVisible]
  rw [canonicalPassthrough, trim, skips]

/-- A canonicalisation flag is no word of the grammar. -/
theorem not_names_of_canonicalArgument {value : Text}
    (flagged : canonicalArgument args = some value) :
    ¬ Names args options := by
  intro names
  have accepted := readArguments_eq_some_iff.mpr names.written
  unfold canonicalArgument at flagged
  split at flagged
  · rename_i flag value
    split at flagged
    · rename_i known
      have rejected : readArguments [flag, value] {} = none := by
        rcases known with rfl | rfl | rfl <;> rfl
      rw [rejected] at accepted
      cases accepted
    · cases flagged
  · cases flagged

/-- The loop over the arguments finds the file that they name. -/
theorem names_iff :
    Names args options ↔
      readArguments args {} = some options ∧ options.programPath ≠ [] := by
  rw [readArguments_eq_some_iff]
  exact ⟨fun names => ⟨names.written, names.named⟩,
    fun ⟨written, named⟩ => ⟨written, named⟩⟩

/-- Without a file to load the command prints how it is used. -/
theorem main_of_unnamed (unflagged : canonicalArgument args = none)
    (unnamed : ∀ options, ¬ Names args options) :
    main host files args = .ok usage := by
  unfold main
  by_cases none : args.isEmpty = true
  · rw [if_pos none]
  rw [if_neg none, unflagged]
  cases accepted : readArguments args {} with
  | none => rfl
  | some options =>
      by_cases empty : options.programPath.isEmpty = true
      · simp [empty]
      · rw [List.isEmpty_iff] at empty
        exact absurd (names_iff.mpr ⟨accepted, empty⟩) (unnamed options)

/-- A named file is loaded and run. -/
theorem main_of_names (names : Names args options) :
    main host files args =
      runProgram host (files options.programPath) options := by
  obtain ⟨accepted, named⟩ := names_iff.mp names
  have present : args.isEmpty = false := by
    cases args with
    | nil =>
        cases accepted
        exact absurd rfl named
    | cons => rfl
  have unflagged : canonicalArgument args = none := by
    cases flagged : canonicalArgument args with
    | none => rfl
    | some value =>
        exact absurd names (not_names_of_canonicalArgument flagged)
  have nonempty : options.programPath.isEmpty = false := by
    simp [named]
  unfold main
  simp [present, unflagged, accepted, nonempty]

/-- A canonicalisation flag trims its value. -/
theorem main_of_canonical {value : Text}
    (flagged : canonicalArgument args = some value) :
    main host files args = .ok { out := trim value ++ text "\n" } := by
  have present : args.isEmpty = false := by
    cases args with
    | nil => cases flagged
    | cons => rfl
  simp [main, present, flagged, canonicalPassthrough_eq_trim]

/-- A file that holds no program is reported. -/
theorem Unloadable.main_eq {error : Text}
    (unloadable : Unloadable files args error) :
    main host files args = .ok
      { err := text "FAULT ParseError: " ++ error ++ text "\n",
        code := 1 } := by
  obtain ⟨names, loads, refused, rfl⟩ := unloadable
  simp [main_of_names names, runProgram, loads, refused]

/-- A session is reported. -/
theorem Session.main_eq
    (session : Session host files args options result final) :
    main host files args = .ok (report options result final.state) := by
  obtain ⟨names, loads, accepted, image, finished⟩ := session
  simp [main_of_names names, runProgram, loads, accepted, image, finished]

/-- The command ends in one of the four ways. -/
theorem main_ends (returned : main host files args = .ok output) :
    Ends host files args output := by
  by_cases named : ∃ options, Names args options
  · obtain ⟨options, names⟩ := named
    rw [main_of_names names] at returned
    unfold runProgram at returned
    split at returned
    · cases returned
    rename_i loaded loads
    split at returned
    · rename_i refused
      cases returned
      exact .unloadable (.intro names loads refused rfl)
    rename_i accepted
    split at returned
    · cases returned
    rename_i vm image
    split at returned
    · cases returned
    rename_i result final finished
    cases returned
    rw [Bool.not_eq_false] at accepted
    exact .ran (.intro names loads accepted image finished)
  · rw [not_exists] at named
    cases flagged : canonicalArgument args with
    | some value =>
        rw [main_of_canonical flagged] at returned
        cases returned
        exact .canonical flagged
    | none =>
        rw [main_of_unnamed flagged named] at returned
        cases returned
        exact .misused flagged named

/-! ## The exit code -/

/-- The first line of a text that begins with part of a line. -/
theorem getlines_of_isPrefix {start rest : Text} (oneLine : OneLine start)
    (nonempty : start ≠ []) :
    ∃ line lines, getlines (start ++ rest) = (start ++ line) :: lines := by
  induction start with
  | nil => exact absurd rfl nonempty
  | cons byte start induction =>
      obtain ⟨visible, others⟩ := List.forall_mem_cons.mp oneLine
      rw [List.cons_append, getlines, visible]
      by_cases last : start = []
      · subst last
        rw [List.nil_append]
        cases getlines rest with
        | nil => exact ⟨[], [], rfl⟩
        | cons line lines => exact ⟨line, lines, rfl⟩
      · obtain ⟨line, lines, same⟩ := induction others last
        rw [same]
        exact ⟨line, lines, rfl⟩

/-- The lines of a text in which each is terminated. -/
theorem getlines_flatMap {lines : List Text}
    (clean : ∀ line ∈ lines, OneLine line) :
    getlines (lines.flatMap (· ++ text "\n")) = lines := by
  induction lines with
  | nil => rfl
  | cons line lines induction =>
      obtain ⟨here, others⟩ := List.forall_mem_cons.mp clean
      rw [List.flatMap_cons, List.append_assoc, getlines_terminated here,
        induction others]

theorem oneLine_of_not_mem {line : Text} (clean : 10 ∉ line) :
    OneLine line := by
  intro byte member
  apply beq_eq_false_iff_ne.mpr
  rintro rfl
  exact clean member

/-- The lines of a report on standard error. -/
def markerLines (mode : Text) : List Text :=
  if mode = text "accelerated-preview" then
    [text "MODE accelerated-preview (preview): using interpreter backend"]
  else []

def faultLines (state : State) : Expected → List Text
  | .ok () => []
  | .error code => (text "FAULT " ++ code.name) :: trapPayloadLines state

def errLines (options : Options) (result : Expected) (state : State) :
    List Text :=
  markerLines options.mode ++ faultLines state result

theorem report_err (state : State) :
    (report options result state).err =
      (errLines options result state).flatMap (· ++ text "\n") := by
  have marker : modeMarker options.mode =
      (markerLines options.mode).flatMap (· ++ text "\n") := by
    unfold modeMarker markerLines
    split <;> simp
  have fault : faultReport state result =
      (faultLines state result).flatMap (· ++ text "\n") := by
    cases result with
    | ok success => rfl
    | error code =>
        rw [faultReport, faultLines, List.flatMap_cons,
          trapPayloadLines_flatMap]
  rw [report, errLines, List.flatMap_append, marker, fault]

theorem errLines_oneLine (state : State) :
    ∀ line ∈ errLines options result state, OneLine line := by
  intro line member
  apply oneLine_of_not_mem
  rcases List.mem_append.mp member with marker | fault
  · unfold markerLines at marker
    split at marker
    · rw [List.mem_singleton.mp marker]
      decide
    · cases marker
  · cases result with
    | ok success => cases fault
    | error code =>
        rcases List.mem_cons.mp fault with rfl | payload
        · have name : 10 ∉ code.name :=
            not_mem_of_isLetter code.name_isLetter rfl
          rw [List.mem_append, not_or]
          exact ⟨by decide, name⟩
        · obtain ⟨trapPayload, _, rfl⟩ := List.mem_map.mp payload
          exact newline_not_mem_payloadLine trapPayload

/-- The lines on standard error are those of the report. -/
theorem getlines_report_err (state : State) :
    getlines (report options result state).err =
      errLines options result state := by
  rw [report_err, getlines_flatMap (errLines_oneLine state)]

/-- What the exit code and standard error say about a call. -/
structure ExitContract (host : Host) (files : Text → Option Text)
    (args : List Text) (output : Output) : Prop where
  success : output.code = 0 ↔
    (∃ value, canonicalArgument args = some value) ∨
      ∃ options final, Session host files args options (.ok ()) final
  failure : output.code = 1 ↔ (∃ error, Unloadable files args error) ∨
    ∃ options code final, Session host files args options (.error code) final
  misuse : output.code = 2 ↔ canonicalArgument args = none ∧
    ∀ options, ¬ Names args options
  silent : output.code = 0 → output.err = [] ∨
    output.err = modeMarker (text "accelerated-preview")
  reported : output.code ≠ 0 → ∃ line ∈ getlines output.err,
    text "usage: " <+: line ∨ text "FAULT " <+: line

/-- The command succeeds when it canonicalises or its session does. -/
theorem Ends.of_success (ends : Ends host files args output)
    (success : output.code = 0) :
    (∃ value, canonicalArgument args = some value) ∨
      ∃ options final, Session host files args options (.ok ()) final := by
  cases ends with
  | canonical flagged => exact .inl ⟨_, flagged⟩
  | misused | unloadable => cases success
  | @ran options result final session =>
      cases result with
      | ok => exact .inr ⟨options, final, session⟩
      | error code => cases success

/-- It fails on a file that holds no program and on a failed session. -/
theorem Ends.of_failure (ends : Ends host files args output)
    (failure : output.code = 1) :
    (∃ error, Unloadable files args error) ∨
      ∃ options code final,
        Session host files args options (.error code) final := by
  cases ends with
  | canonical | misused => cases failure
  | @unloadable error refused => exact .inl ⟨error, refused⟩
  | @ran options result final session =>
      cases result with
      | ok => cases failure
      | error code => exact .inr ⟨options, code, final, session⟩

/-- Any other exit code means that there was nothing to run. -/
theorem Ends.of_misuse (ends : Ends host files args output)
    (misuse : output.code = 2) :
    canonicalArgument args = none ∧ ∀ options, ¬ Names args options := by
  cases ends with
  | misused unflagged unnamed => exact ⟨unflagged, unnamed⟩
  | canonical | unloadable => cases misuse
  | @ran options result final session =>
      cases result <;> cases misuse

/-- A success writes no more than the marker of its mode. -/
theorem Ends.silent (ends : Ends host files args output)
    (success : output.code = 0) :
    output.err = [] ∨
      output.err = modeMarker (text "accelerated-preview") := by
  cases ends with
  | canonical => exact .inl rfl
  | misused | unloadable => cases success
  | @ran options result final session =>
      cases result with
      | error code => cases success
      | ok =>
          by_cases preview : options.mode = text "accelerated-preview"
          · apply Or.inr
            rw [report, preview, faultReport, List.append_nil]
          · apply Or.inl
            rw [report, modeMarker, if_neg preview, faultReport]
            rfl

/-- A text that begins with a label has a line that does. -/
theorem labelled_line {label rest : Text} (oneLine : OneLine label)
    (visible : label ≠ []) :
    ∃ line ∈ getlines (label ++ rest), label <+: line := by
  obtain ⟨line, lines, same⟩ := getlines_of_isPrefix oneLine visible
  rw [same]
  exact ⟨_, List.mem_cons_self, List.prefix_append _ _⟩

/-- Everything else explains itself in a line of its own. -/
theorem Ends.labelled (ends : Ends host files args output)
    (failed : output.code ≠ 0) :
    ∃ line ∈ getlines output.err,
      text "usage: " <+: line ∨ text "FAULT " <+: line := by
  cases ends with
  | canonical => exact absurd rfl failed
  | misused =>
      have whole : usage.err = text "usage: " ++ usageText.drop 7 := rfl
      obtain ⟨line, member, starts⟩ :=
        @labelled_line (text "usage: ") (usageText.drop 7) (by decide)
          (by decide)
      rw [whole]
      exact ⟨line, member, .inl starts⟩
  | @unloadable error refused =>
      have whole : text "FAULT ParseError: " ++ error ++ text "\n" =
          text "FAULT " ++ (text "ParseError: " ++ error ++ text "\n") := rfl
      obtain ⟨line, member, starts⟩ :=
        @labelled_line (text "FAULT ")
          (text "ParseError: " ++ error ++ text "\n") (by decide) (by decide)
      rw [whole]
      exact ⟨line, member, .inr starts⟩
  | @ran options result final session =>
      cases result with
      | ok => exact absurd rfl failed
      | error code =>
          rw [getlines_report_err]
          exact ⟨_, List.mem_append_right _ List.mem_cons_self,
            .inr (List.prefix_append _ _)⟩

/-- The exit code tells the ways to end apart; a success is silent and
everything else explains itself. -/
theorem exitContract (returned : main host files args = .ok output) :
    ExitContract host files args output := by
  have ends := main_ends returned
  refine ⟨⟨ends.of_success, ?_⟩, ⟨ends.of_failure, ?_⟩,
    ⟨ends.of_misuse, ?_⟩, ends.silent, ends.labelled⟩
  · intro success
    rcases success with ⟨value, flagged⟩ | ⟨options, final, session⟩
    · rw [main_of_canonical flagged] at returned
      cases returned
      rfl
    · rw [session.main_eq] at returned
      cases returned
      rfl
  · intro failure
    rcases failure with ⟨error, refused⟩ | ⟨options, code, final, session⟩
    · rw [refused.main_eq] at returned
      cases returned
      rfl
    · rw [session.main_eq] at returned
      cases returned
      rfl
  · intro misuse
    rw [main_of_unnamed misuse.1 misuse.2] at returned
    cases returned
    rfl

/-- A file system with one file. -/
def oneFile (path content : Text) : Text → Option Text :=
  fun name => if name = path then some content else none

theorem exitContract_halt :
    ∃ output, main strictHost (oneFile (text "halt.t81") (text "HALT\n"))
        [text "halt.t81"] = .ok output ∧
      ExitContract strictHost (oneFile (text "halt.t81") (text "HALT\n"))
        [text "halt.t81"] output := by
  have returned : main strictHost
      (oneFile (text "halt.t81") (text "HALT\n")) [text "halt.t81"] =
        .ok _ := rfl
  exact ⟨_, returned, exitContract returned⟩

/-! ## The end of the loop, read from the output -/

namespace Interpreter

variable {vm : Interpreter} {maxSteps : Nat} {exit : LoopExit}

/-- A loop that traps has recorded its trap. -/
theorem Loops.lastTrapPayload_trap {code : Trap}
    (loops : Loops host maxSteps vm (.trapped code) final) :
    ∃ payload, final.state.lastTrapPayload = some payload ∧
      payload.trap = code := by
  obtain ⟨state, _, stepped⟩ := @Loops.last_step host vm final maxSteps
    (fun _ => True) code (fun _ _ _ _ _ => trivial) loops trivial
  exact (recorded_of_step stepped).payload

end Interpreter

/-- The exit code and standard error tell how the loop ended: a payload line
is printed for the trap that stopped it, and none when the budget was used
up. -/
structure EndShown (exit : LoopExit) (output : Output) : Prop where
  halted : exit = .halted ↔ output.code = 0
  trapped : ∀ code, exit = .trapped code ↔
    ∃ payload : TrapPayload, payload.trap = code ∧
      payloadLine payload ∈ getlines output.err
  exhausted : exit = .exhausted ↔ output.code = 1 ∧
    ∀ line ∈ getlines output.err, ¬ text "TRAP_PAYLOAD " <+: line

theorem payloadLine_isPrefix (payload : TrapPayload) :
    text "TRAP_PAYLOAD " <+: payloadLine payload := by
  have label : text "TRAP_PAYLOAD " = text "TRAP_PAYLOAD" ++ text " " := rfl
  have field : text " trap=" = text " " ++ text "trap=" := rfl
  unfold payloadLine
  rw [label, field]
  simp only [List.append_assoc, List.prefix_append_right_inj]
  exact List.prefix_append _ _

theorem payloadLine_head (payload : TrapPayload) :
    (payloadLine payload).head? = some 84 := by
  obtain ⟨rest, same⟩ := payloadLine_isPrefix payload
  rw [← same]
  rfl

/-- The lines on standard error that begin with the letter `T`. -/
theorem of_mem_errLines {line : Text} {state : State}
    (member : line ∈ errLines options result state)
    (head : line.head? = some 84) :
    (∃ code, result = .error code) ∧ ∃ payload,
      state.lastTrapPayload = some payload ∧ line = payloadLine payload := by
  rcases List.mem_append.mp member with marker | fault
  · unfold markerLines at marker
    split at marker
    · rw [List.mem_singleton.mp marker] at head
      exact absurd head (by decide)
    · cases marker
  cases result with
  | ok => cases fault
  | error code =>
      rcases List.mem_cons.mp fault with rfl | payload
      · have faulty : (text "FAULT " ++ code.name).head? = some 70 := rfl
        rw [faulty] at head
        exact absurd head (by decide)
      · rw [trapPayloadLines, List.mem_map] at payload
        obtain ⟨shown, recorded, same⟩ := payload
        rw [Option.mem_toList] at recorded
        exact ⟨⟨code, rfl⟩, shown, recorded, same.symm⟩

/-- A payload line on standard error shows the payload of a failed run. -/
theorem payloadLine_mem_errLines {payload : TrapPayload} {state : State} :
    payloadLine payload ∈ errLines options result state ↔
      (∃ code, result = .error code) ∧
        state.lastTrapPayload = some payload := by
  constructor
  · intro member
    obtain ⟨failed, other, recorded, same⟩ :=
      of_mem_errLines member (payloadLine_head payload)
    rw [payloadLine_injective same]
    exact ⟨failed, recorded⟩
  · rintro ⟨⟨code, rfl⟩, recorded⟩
    have line : payloadLine payload ∈ trapPayloadLines state := by
      rw [trapPayloadLines, recorded]
      exact List.mem_singleton_self _
    rw [errLines, faultLines]
    exact List.mem_append_right _ (List.mem_cons_of_mem _ line)

/-- A session runs the loop on a freshly loaded machine. -/
theorem Session.loops
    (session : Session host files args options result final) :
    ∃ program vm exit, Interpreter.Loads program vm ∧
      Interpreter.Loops host options.maxSteps vm exit final ∧
      result = exit.verdict := by
  obtain ⟨names, loads, accepted, image, finished⟩ := session
  obtain ⟨exit, loops, verdict⟩ :=
    Interpreter.runToHalt_eq_ok_iff_loops.mp finished
  exact ⟨_, _, exit, ⟨_, image⟩, loops, verdict⟩

/-- How the loop ended can be read from what the command printed. -/
theorem endShown_report {program : Program} {vm : Interpreter}
    {exit : LoopExit} (loads : Interpreter.Loads program vm)
    (loops : Interpreter.Loops host options.maxSteps vm exit final) :
    EndShown exit (report options exit.verdict final.state) := by
  have fresh : vm.state.lastTrapPayload = none := by
    obtain ⟨policy, same⟩ := loads.state_eq
    rw [same]
    rfl
  cases exit with
  | halted =>
      refine ⟨iff_of_true rfl rfl, fun code => iff_of_false (by simp) ?_,
        iff_of_false (by simp) ?_⟩
      · rintro ⟨payload, _, member⟩
        rw [getlines_report_err, payloadLine_mem_errLines] at member
        obtain ⟨⟨code, failed⟩, _⟩ := member
        cases failed
      · rintro ⟨failed, _⟩
        cases failed
  | trapped code =>
      obtain ⟨payload, recorded, named⟩ := loops.lastTrapPayload_trap
      have printed : payloadLine payload ∈
          getlines (report options (.error code) final.state).err := by
        rw [getlines_report_err, payloadLine_mem_errLines]
        exact ⟨⟨code, rfl⟩, recorded⟩
      refine ⟨iff_of_false (by simp) (by simp [report, LoopExit.verdict]),
        fun other => ?_, iff_of_false (by simp) ?_⟩
      · constructor
        · intro same
          cases same
          exact ⟨payload, named, printed⟩
        · rintro ⟨shown, rfl, member⟩
          rw [LoopExit.verdict, getlines_report_err,
            payloadLine_mem_errLines] at member
          rw [recorded, Option.some.injEq] at member
          rw [← member.2, named]
      · rintro ⟨_, unlabelled⟩
        exact unlabelled _ printed (payloadLine_isPrefix payload)
  | exhausted =>
      have clear := loops.exhausted_payload.trans fresh
      have silent : ∀ line ∈ getlines
          (report options LoopExit.exhausted.verdict final.state).err,
          ¬ text "TRAP_PAYLOAD " <+: line := by
        intro line member labelled
        rw [getlines_report_err] at member
        obtain ⟨rest, rfl⟩ := labelled
        obtain ⟨_, payload, recorded, _⟩ := of_mem_errLines member rfl
        rw [clear] at recorded
        cases recorded
      refine ⟨iff_of_false (by simp) (by simp [report, LoopExit.verdict]),
        fun code => iff_of_false (by simp) ?_, iff_of_true rfl ⟨rfl, silent⟩⟩
      rintro ⟨payload, _, member⟩
      exact silent _ member (payloadLine_isPrefix payload)

/-- What the command prints of a run tells how its loop ended, and the loop is
the one of the loaded program under the budget of the command line. -/
theorem session_endShown (returned : main host files args = .ok output)
    (session : Session host files args options result final) :
    ∃ program vm exit, Interpreter.Loads program vm ∧
      Interpreter.Loops host options.maxSteps vm exit final ∧
      EndShown exit output := by
  obtain ⟨program, vm, exit, loads, loops, rfl⟩ := session.loops
  rw [session.main_eq] at returned
  cases returned
  exact ⟨program, vm, exit, loads, loops, endShown_report loads loops⟩

/-- The payload line of a trap is on standard error. -/
theorem session_endShown_trap :
    ∃ output program vm exit final,
      main strictHost (oneFile (text "trap.t81") (text "TRAP\n"))
        [text "trap.t81"] = .ok output ∧ output.code = 1 ∧
      Interpreter.Loads program vm ∧
      Interpreter.Loops strictHost 100000 vm exit final ∧
      EndShown exit output := by
  have names : Names [text "trap.t81"] _ := names_iff.mpr ⟨rfl, by decide⟩
  have session : Session strictHost
      (oneFile (text "trap.t81") (text "TRAP\n")) [text "trap.t81"] _
        (.error .trapInstruction) _ := .intro names rfl rfl rfl rfl
  have returned := session.main_eq
  obtain ⟨program, vm, exit, loads, loops, shown⟩ :=
    session_endShown returned session
  exact ⟨_, program, vm, exit, _, returned, rfl, loads, loops, shown⟩

end T81VM.VM
