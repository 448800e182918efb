import T81VM.ProgramIo.Loaders

/-!
# The command line

`readArguments` is the loop of `main` over its arguments.  The command lines
it accepts are the sequences of items in which no path follows a nonempty
one; the last item of a kind decides.
-/

namespace T81VM.VM

open ProgramIo

/-! ## The loop over the arguments -/

/-- `std::stoull` in base ten, and nothing when it throws.  What follows the
digits is ignored, and a minus sign negates the word. -/
def stoull (raw : Text) : Option Nat :=
  let (negative, unsigned) := splitSign (raw.dropWhile isSpace)
  let digits := unsigned.takeWhile Decimal.isDigit
  let magnitude := Decimal.value digits
  if digits.isEmpty || decide (2 ^ 64 ≤ magnitude) then none
  else if negative then some (wrapSize (2 ^ 64 - magnitude))
  else some magnitude

/-- The variables the loop sets. -/
structure Options where
  emitTrace : Bool := false
  emitSnapshot : Bool := false
  maxSteps : Nat := 100000
  mode : Text := text "interpreter"
  programPath : Text := []
  deriving DecidableEq

/-- Read the arguments; `none` stands for the usage message. -/
def readArguments : List Text → Options → Option Options
  | [], options => some options
  | arg :: rest, options =>
      if arg = text "--trace" then
        readArguments rest { options with emitTrace := true }
      else if arg = text "--snapshot" then
        readArguments rest { options with emitSnapshot := true }
      else if arg = text "--max-steps" then
        match rest with
        | [] => none
        | raw :: rest =>
            match stoull raw with
            | none => none
            | some maxSteps =>
                if maxSteps = 0 then none
                else readArguments rest { options with maxSteps }
      else if arg = text "--mode" then
        match rest with
        | [] => none
        | mode :: rest =>
            if mode ≠ text "interpreter"
                ∧ mode ≠ text "accelerated-preview" then none
            else readArguments rest { options with mode }
      else if arg.head? = some '-'.toUInt8 then none
      else if options.programPath ≠ [] then none
      else readArguments rest { options with programPath := arg }

/-! ## The grammar -/

/-- One item of a command line. -/
inductive Argument where
  | trace
  | snapshot
  | maxSteps (raw : Text)
  | mode (name : Text)
  | path (name : Text)
  deriving DecidableEq

namespace Argument

/-- The words of an item. -/
def words : Argument → List Text
  | trace => [text "--trace"]
  | snapshot => [text "--snapshot"]
  | maxSteps raw => [text "--max-steps", raw]
  | mode name => [text "--mode", name]
  | path name => [name]

/-- A budget is positive, a mode is known, and a path has no dash in front. -/
def Valid : Argument → Prop
  | trace | snapshot => True
  | maxSteps raw => ∃ steps, stoull raw = some steps ∧ steps ≠ 0
  | mode name => name = text "interpreter" ∨ name = text "accelerated-preview"
  | path name => name.head? ≠ some '-'.toUInt8

def steps? : Argument → Option Nat
  | maxSteps raw => stoull raw
  | _ => none

def mode? : Argument → Option Text
  | mode name => some name
  | _ => none

def path? : Argument → Option Text
  | path name => some name
  | _ => none

end Argument

/-- What the items make of the options: the last item of a kind decides. -/
def optionsFrom (options : Options) (items : List Argument) : Options where
  emitTrace := options.emitTrace || items.contains .trace
  emitSnapshot := options.emitSnapshot || items.contains .snapshot
  maxSteps := (items.filterMap Argument.steps?).getLastD options.maxSteps
  mode := (items.filterMap Argument.mode?).getLastD options.mode
  programPath := (items.filterMap Argument.path?).getLastD options.programPath

/-- Items that can be read after these options: no path follows a nonempty
one. -/
structure CommandLine (options : Options) (items : List Argument) :
    Prop where
  valid : ∀ item ∈ items, item.Valid
  paths : (options.programPath :: items.filterMap Argument.path?).Pairwise
    fun earlier _ => earlier = []

/-- The arguments are written as items that make these options. -/
def Written (options : Options) (args : List Text) (final : Options) : Prop :=
  ∃ items, CommandLine options items ∧
    args = items.flatMap Argument.words ∧ final = optionsFrom options items

variable {args rest : List Text} {options final : Options}
  {items others : List Argument} {item : Argument}

/-! ## One item -/

theorem commandLine_nil : CommandLine options [] :=
  ⟨fun _ member => absurd member List.not_mem_nil, List.pairwise_singleton ..⟩

theorem optionsFrom_programPath :
    (optionsFrom options items).programPath =
      (items.filterMap Argument.path?).getLastD options.programPath := rfl

theorem optionsFrom_of_no_flags (noTrace : items.contains .trace = false)
    (noSnapshot : items.contains .snapshot = false) :
    optionsFrom options items =
      { options with
        maxSteps :=
          (items.filterMap Argument.steps?).getLastD options.maxSteps
        mode := (items.filterMap Argument.mode?).getLastD options.mode
        programPath :=
          (items.filterMap Argument.path?).getLastD options.programPath } := by
  rw [optionsFrom, noTrace, noSnapshot, Bool.or_false, Bool.or_false]

theorem optionsFrom_nil : optionsFrom options [] = options :=
  optionsFrom_of_no_flags rfl rfl

/-- A path is only taken while there is none yet. -/
theorem commandLine_cons (valid : item.Valid) :
    CommandLine options (item :: items) ↔
      (item.path? ≠ none → options.programPath = []) ∧
        CommandLine (optionsFrom options [item]) items := by
  have whole : (∀ other ∈ item :: items, other.Valid) ↔
      ∀ other ∈ items, other.Valid := by
    simp [valid]
  cases named : item.path? with
  | none =>
      have kept : (optionsFrom options [item]).programPath =
          options.programPath := by
        rw [optionsFrom_programPath, List.filterMap_cons_none named]
        rfl
      constructor
      · intro line
        have paths := line.paths
        rw [List.filterMap_cons_none named, ← kept] at paths
        exact ⟨fun some => absurd rfl some, whole.mp line.valid, paths⟩
      · rintro ⟨_, line⟩
        have paths := line.paths
        rw [kept, ← List.filterMap_cons_none named] at paths
        exact ⟨whole.mpr line.valid, paths⟩
  | some name =>
      have taken : (optionsFrom options [item]).programPath = name := by
        rw [optionsFrom_programPath, List.filterMap_cons_some named]
        rfl
      have split : (options.programPath
            :: (item :: items).filterMap Argument.path?).Pairwise
              (fun earlier _ => earlier = []) ↔
          options.programPath = [] ∧
            (name :: items.filterMap Argument.path?).Pairwise
              fun earlier _ => earlier = [] := by
        rw [List.filterMap_cons_some named, List.pairwise_cons]
        constructor
        · rintro ⟨before, after⟩
          exact ⟨before name List.mem_cons_self, after⟩
        · rintro ⟨free, after⟩
          exact ⟨fun _ _ => free, after⟩
      constructor
      · intro line
        obtain ⟨free, later⟩ := split.mp line.paths
        rw [← taken] at later
        exact ⟨fun _ => free, whole.mp line.valid, later⟩
      · rintro ⟨free, line⟩
        have later := line.paths
        rw [taken] at later
        exact ⟨whole.mpr line.valid, split.mpr ⟨free (by simp), later⟩⟩

/-- The last value picked from a list, or a default. -/
theorem getLastD_filterMap_cons {α β : Type} (pick : α → Option β)
    (first : α) (others : List α) (default : β) :
    ((first :: others).filterMap pick).getLastD default =
      (others.filterMap pick).getLastD
        (([first].filterMap pick).getLastD default) := by
  cases picked : pick first with
  | none =>
      rw [List.filterMap_cons_none picked, List.filterMap_cons_none picked]
      rfl
  | some value =>
      rw [List.filterMap_cons_some picked, List.filterMap_cons_some picked,
        List.getLastD_cons]
      rfl

/-- The items are taken one by one. -/
theorem optionsFrom_cons :
    optionsFrom options (item :: items) =
      optionsFrom (optionsFrom options [item]) items := by
  have flags : ∀ wanted : Argument, (item :: items).contains wanted =
      ([item].contains wanted || items.contains wanted) := by
    intro wanted
    simp
  unfold optionsFrom
  rw [getLastD_filterMap_cons Argument.steps?,
    getLastD_filterMap_cons Argument.mode?,
    getLastD_filterMap_cons Argument.path?, flags, flags]
  simp only [Bool.or_assoc]

/-! ## The loop reads the grammar -/

theorem optionsFrom_trace :
    optionsFrom options [.trace] = { options with emitTrace := true } := by
  obtain ⟨emitTrace, emitSnapshot, _, _, _⟩ := options
  cases emitTrace <;> cases emitSnapshot <;> rfl

theorem optionsFrom_snapshot :
    optionsFrom options [.snapshot] =
      { options with emitSnapshot := true } := by
  obtain ⟨emitTrace, emitSnapshot, _, _, _⟩ := options
  cases emitTrace <;> cases emitSnapshot <;> rfl

theorem optionsFrom_maxSteps {raw : Text} {maxSteps : Nat}
    (reads : stoull raw = some maxSteps) :
    optionsFrom options [.maxSteps raw] = { options with maxSteps } := by
  have picked : [Argument.maxSteps raw].filterMap Argument.steps? =
      [maxSteps] := List.filterMap_cons_some reads
  rw [optionsFrom_of_no_flags rfl rfl, picked]
  rfl

theorem optionsFrom_mode {mode : Text} :
    optionsFrom options [.mode mode] = { options with mode } :=
  optionsFrom_of_no_flags rfl rfl

theorem optionsFrom_path {name : Text} :
    optionsFrom options [.path name] =
      { options with programPath := name } :=
  optionsFrom_of_no_flags rfl rfl

/-- A path is none of the words that begin with a dash. -/
theorem ne_of_valid_path {name word : Text}
    (valid : (Argument.path name).Valid)
    (dashed : word.head? = some '-'.toUInt8) : name ≠ word := by
  intro same
  exact valid (same ▸ dashed)

/-- The words of one item are read as that item. -/
theorem readArguments_item (valid : item.Valid)
    (free : item.path? ≠ none → options.programPath = []) :
    readArguments (item.words ++ rest) options =
      readArguments rest (optionsFrom options [item]) := by
  cases item with
  | trace =>
      have words : Argument.trace.words ++ rest =
          text "--trace" :: rest := rfl
      rw [optionsFrom_trace, words, readArguments.eq_def]
      rfl
  | snapshot =>
      have words : Argument.snapshot.words ++ rest =
          text "--snapshot" :: rest := rfl
      rw [optionsFrom_snapshot, words, readArguments.eq_def]
      rfl
  | maxSteps raw =>
      obtain ⟨maxSteps, reads, positive⟩ := valid
      have noTrace : text "--max-steps" ≠ text "--trace" := by decide
      have noSnapshot : text "--max-steps" ≠ text "--snapshot" := by decide
      have words : (Argument.maxSteps raw).words ++ rest =
          text "--max-steps" :: raw :: rest := rfl
      rw [optionsFrom_maxSteps reads, words, readArguments.eq_def]
      simp only [noTrace, noSnapshot, reads, positive, if_true, if_false]
  | mode name =>
      rw [optionsFrom_mode]
      rcases valid with rfl | rfl
      · rfl
      · rfl
  | path name =>
      have noTrace : name ≠ text "--trace" := ne_of_valid_path valid rfl
      have noSnapshot : name ≠ text "--snapshot" := ne_of_valid_path valid rfl
      have noSteps : name ≠ text "--max-steps" := ne_of_valid_path valid rfl
      have noMode : name ≠ text "--mode" := ne_of_valid_path valid rfl
      have noDash : name.head? ≠ some '-'.toUInt8 := valid
      have none := free (Option.some_ne_none name)
      have words : (Argument.path name).words ++ rest = name :: rest := rfl
      rw [optionsFrom_path, words, readArguments.eq_def]
      simp only [noTrace, noSnapshot, noSteps, noMode, noDash, none,
        ne_eq, not_true_eq_false, if_false]

/-- Words of the grammar are read. -/
theorem readArguments_words (line : CommandLine options items) :
    readArguments (items.flatMap Argument.words) options =
      some (optionsFrom options items) := by
  induction items generalizing options with
  | nil =>
      rw [optionsFrom_nil]
      rfl
  | cons item items induction =>
      have valid := line.valid item List.mem_cons_self
      obtain ⟨free, later⟩ := (commandLine_cons valid).mp line
      rw [List.flatMap_cons, optionsFrom_cons, readArguments_item valid free]
      exact induction later

/-- An item in front of what is written. -/
theorem Written.cons
    (written : Written (optionsFrom options [item]) rest final)
    (valid : item.Valid)
    (free : item.path? ≠ none → options.programPath = []) :
    Written options (item.words ++ rest) final := by
  obtain ⟨items, line, rfl, rfl⟩ := written
  exact ⟨item :: items, (commandLine_cons valid).mpr ⟨free, line⟩,
    List.flatMap_cons.symm, optionsFrom_cons.symm⟩

/-- What is read is written in words of the grammar. -/
theorem written_of_readArguments
    (accepted : readArguments args options = some final) :
    Written options args final := by
  fun_induction readArguments args options with
  | case1 options =>
      cases accepted
      exact ⟨[], commandLine_nil, rfl, optionsFrom_nil.symm⟩
  | case2 rest options induction =>
      have written := induction accepted
      rw [← optionsFrom_trace] at written
      exact written.cons trivial (absurd rfl)
  | case3 rest options _ induction =>
      have written := induction accepted
      rw [← optionsFrom_snapshot] at written
      exact written.cons trivial (absurd rfl)
  | case7 options raw rest maxSteps reads positive _ _ induction =>
      have written := induction accepted
      rw [← optionsFrom_maxSteps reads] at written
      exact written.cons ⟨maxSteps, reads, positive⟩ (absurd rfl)
  | case10 options mode rest known _ _ _ induction =>
      have written := induction accepted
      rw [← optionsFrom_mode] at written
      rw [not_and_or, not_not, not_not] at known
      exact written.cons known (absurd rfl)
  | case13 arg rest options _ _ _ _ noDash free induction =>
      have written := induction accepted
      rw [← optionsFrom_path] at written
      exact written.cons noDash fun _ => not_not.mp free
  | case4 | case5 | case6 | case8 | case9 | case11 | case12 => cases accepted

/-! ## The grammar is unambiguous -/

/-- The first item of a command line is determined by its words. -/
theorem words_inj {first second : Argument} {rest later : List Text}
    (valid : first.Valid) (valid' : second.Valid)
    (same : first.words ++ rest = second.words ++ later) :
    first = second ∧ rest = later := by
  have dashed : ∀ {name word : Text} {rest later : List Text},
      (Argument.path name).Valid → word.head? = some '-'.toUInt8 →
        name :: rest ≠ word :: later := by
    intro name word rest later valid dashed same
    exact ne_of_valid_path valid dashed (List.cons.inj same).1
  cases first with
  | trace =>
      cases second with
      | trace => exact ⟨rfl, (List.cons.inj same).2⟩
      | path => exact absurd same.symm (dashed valid' rfl)
      | _ => exact absurd (List.cons.inj same).1 (by decide)
  | snapshot =>
      cases second with
      | snapshot => exact ⟨rfl, (List.cons.inj same).2⟩
      | path => exact absurd same.symm (dashed valid' rfl)
      | _ => exact absurd (List.cons.inj same).1 (by decide)
  | maxSteps raw =>
      cases second with
      | maxSteps raw' =>
          obtain ⟨rfl, rest⟩ := List.cons.inj (List.cons.inj same).2
          exact ⟨rfl, rest⟩
      | path => exact absurd same.symm (dashed valid' rfl)
      | _ => exact absurd (List.cons.inj same).1 (by decide)
  | mode name =>
      cases second with
      | mode name' =>
          obtain ⟨rfl, rest⟩ := List.cons.inj (List.cons.inj same).2
          exact ⟨rfl, rest⟩
      | path => exact absurd same.symm (dashed valid' rfl)
      | _ => exact absurd (List.cons.inj same).1 (by decide)
  | path name =>
      cases second with
      | path name' =>
          obtain ⟨rfl, rest⟩ := List.cons.inj same
          exact ⟨rfl, rest⟩
      | _ => exact absurd same (dashed valid rfl)

/-- Different items are written in different words. -/
theorem flatMap_words_inj (valid : ∀ item ∈ items, item.Valid)
    (valid' : ∀ item ∈ others, item.Valid)
    (same : items.flatMap Argument.words = others.flatMap Argument.words) :
    items = others := by
  have words : ∀ item : Argument, item.words ≠ [] := by
    intro item
    cases item <;> exact List.cons_ne_nil _ _
  induction items generalizing others with
  | nil =>
      cases others with
      | nil => rfl
      | cons other others =>
          rw [List.flatMap_nil, List.flatMap_cons] at same
          exact absurd (List.append_eq_nil_iff.mp same.symm).1 (words other)
  | cons item items induction =>
      cases others with
      | nil =>
          rw [List.flatMap_nil, List.flatMap_cons] at same
          exact absurd (List.append_eq_nil_iff.mp same).1 (words item)
      | cons other others =>
          rw [List.flatMap_cons, List.flatMap_cons] at same
          obtain ⟨here, itemsValid⟩ := List.forall_mem_cons.mp valid
          obtain ⟨here', othersValid⟩ := List.forall_mem_cons.mp valid'
          obtain ⟨rfl, later⟩ := words_inj here here' same
          rw [induction itemsValid othersValid later]

/-- The loop accepts what is written in the grammar. -/
theorem readArguments_eq_some_iff :
    readArguments args options = some final ↔ Written options args final := by
  constructor
  · exact written_of_readArguments
  · rintro ⟨items, line, rfl, rfl⟩
    exact readArguments_words line

/-- The loop over the arguments accepts the words of the grammar and nothing
else, and they stand for one list of items. -/
structure ReadsGrammar (options : Options) (args : List Text) : Prop where
  accepts : ∀ final, readArguments args options = some final ↔
    Written options args final
  unambiguous : ∀ items others, CommandLine options items →
    CommandLine options others → args = items.flatMap Argument.words →
      args = others.flatMap Argument.words → items = others

/-- Every command line is read by the grammar. -/
theorem readsGrammar (options : Options) (args : List Text) :
    ReadsGrammar options args := by
  constructor
  · exact fun final => readArguments_eq_some_iff
  · intro items others line line' written written'
    rw [written] at written'
    exact flatMap_words_inj line.valid line'.valid written'

end T81VM.VM
