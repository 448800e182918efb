import T81VM.ProgramIo.JsonGrammar
import T81VM.ProgramIo.TextGrammar

/-!
# Exceptions of the loaders

A load reports what is wrong with a file in its result, with one exception:
an integer that a field expression matches is converted without a guard.  The
texts on which a load throws are described by what stands in them.
-/

namespace T81VM.ProgramIo

open Tisc Scan

/-- The first integer of the key does not fit in a signed word. -/
def IntOverflow (obj key : Text) : Prop :=
  ∃ front here negative digits, obj = front ++ here ∧
    First (fun rest => ∃ sign number, IntAt key rest sign number) front here ∧
    IntAt key here negative digits ∧
    ∀ value : Int64, value.toInt ≠ if negative then
      -(Decimal.value digits : Int) else Decimal.value digits

/-- An operand of the object does not fit, and those before it do. -/
inductive OperandOverflows (obj : Text) : Prop where
  | a (overflows : IntOverflow obj (text "a"))
  | b {first : Int64} (a : IntField obj (text "a") first)
      (overflows : IntOverflow obj (text "b"))
  | c {first second : Int64} (a : IntField obj (text "a") first)
      (b : IntField obj (text "b") second)
      (overflows : IntOverflow obj (text "c"))

/-- The first stretch of the body in balanced braces, and the rest. -/
def ObjectAt (body obj rest : Text) : Prop :=
  ∃ gap, body = gap ++ (obj ++ rest) ∧ 123 ∉ gap ∧ Closes 123 125 obj

/-- Behind `count` instructions the loop over the objects meets an operand
that does not fit, or more instructions than a program can hold. -/
inductive Raises : Nat → Text → Prop where
  | operand {count : Nat} {body obj rest name : Text} {opcode : Opcode}
      (here : ObjectAt body obj rest)
      (spelled : StringField obj (text "opcode") name)
      (known : opcodeFromString name = some opcode)
      (overflows : OperandOverflows obj) : Raises count body
  | full {count : Nat} {body obj rest name : Text} {insn : Insn}
      (here : ObjectAt body obj rest)
      (spelled : StringField obj (text "opcode") name)
      (known : opcodeFromString name = some insn.opcode)
      (a : IntField obj (text "a") insn.a)
      (b : IntField obj (text "b") insn.b)
      (c : IntField obj (text "c") insn.c)
      (full : maxInsns ≤ count) : Raises count body
  | later {count : Nat} {body obj rest name : Text} {insn : Insn}
      (here : ObjectAt body obj rest)
      (spelled : StringField obj (text "opcode") name)
      (known : opcodeFromString name = some insn.opcode)
      (a : IntField obj (text "a") insn.a)
      (b : IntField obj (text "b") insn.b)
      (c : IntField obj (text "c") insn.c)
      (raises : Raises (count + 1) rest) : Raises count body

/-- The document throws: its array raises. -/
def DocumentRaises (input : Text) : Prop :=
  ∃ body, ArrayBody input body ∧ Raises 0 body

/-- The text throws: there are more instructions than a program can hold
before the first unknown opcode. -/
def TextRaises (input : Text) : Prop :=
  maxInsns < ((statements input).takeWhile hasOpcode).length

/-- A result is an accepted program or has an error message. -/
def Reported (out : ProgramLoadResult) : Prop :=
  out.ok = true ∨ out.error ≠ []

/-- The load returns a result. -/
def LoadReturns (content : Option Text) (path : Text) : Prop :=
  ∃ out, loadProgramFromFile content path = .ok out ∧ Reported out

/-! ## Operands -/

variable {obj key body rest : Text} {out final : ProgramLoadResult}
  {raised : StdException} {fuel count : Nat}

theorem signedWord_eq_none_iff {negative : Bool} {magnitude : Nat} :
    signedWord negative magnitude = none ↔
      ∀ value : Int64, value.toInt ≠ if negative then -(magnitude : Int)
        else magnitude := by
  rw [Option.eq_none_iff_forall_not_mem]
  constructor
  · intro none value same
    exact none value (signedWord_eq_some_iff.mpr same)
  · intro differ value word
    exact differ value (signedWord_eq_some_iff.mp word)

/-- The conversion of a matched integer. -/
theorem IntAt.stoll {here digits : Text} {negative : Bool}
    (stands : IntAt key here negative digits) :
    ProgramIo.stoll (signedDigits negative digits) =
      match signedWord negative (Decimal.value digits) with
      | some value => .ok value
      | none => .error .outOfRange := by
  obtain ⟨_, _, _, _, _, nonempty, decimal, _⟩ := stands
  exact stoll_signedDigits nonempty decimal

/-- A field throws when its integer does not fit. -/
theorem parseIntField_error_iff :
    (∃ raised, parseIntField obj key = .error raised) ↔
      IntOverflow obj key := by
  constructor
  · intro thrown
    obtain ⟨raised, thrown⟩ := thrown
    cases captured : firstCapture (intFieldRe key) obj with
    | none =>
        rw [parseIntField, captured] at thrown
        cases thrown
    | some number =>
        obtain ⟨front, here, whole, first, negative, digits, same, stands⟩ :=
          captured_integer_iff.mp captured
        refine ⟨front, here, negative, digits, whole, first, stands, ?_⟩
        rw [← signedWord_eq_none_iff]
        cases word : signedWord negative (Decimal.value digits) with
        | none => rfl
        | some value =>
            rw [parseIntField, captured, same] at thrown
            simp only [stands.stoll, word] at thrown
            cases thrown
  · intro overflows
    obtain ⟨front, here, negative, digits, whole, first, stands, differ⟩ :=
      overflows
    have captured := captured_integer_iff.mpr
      ⟨front, here, whole, first, negative, digits, rfl, stands⟩
    rw [← signedWord_eq_none_iff] at differ
    refine ⟨.outOfRange, ?_⟩
    rw [parseIntField, captured]
    simp only [stands.stoll, differ]
    rfl

/-- The operands throw when one that is reached does not fit. -/
theorem parseOperands_error_iff :
    (∃ raised, parseOperands obj = .error raised) ↔ OperandOverflows obj := by
  have throws : ∀ key, IntOverflow obj key ↔
      ∃ raised, parseIntField obj key = .error raised := by
    intro key
    rw [parseIntField_error_iff]
  constructor
  · intro thrown
    obtain ⟨raised, thrown⟩ := thrown
    rw [parseOperands] at thrown
    rcases bind_eq_error.mp thrown with first | rest
    · exact .a ((throws _).mpr ⟨raised, first⟩)
    obtain ⟨a, readsA, rest⟩ := rest
    cases a with
    | none => cases rest
    | some a =>
        have fieldA := parseIntField_eq_ok_iff.mp readsA
        rcases bind_eq_error.mp rest with second | rest
        · exact .b fieldA ((throws _).mpr ⟨raised, second⟩)
        obtain ⟨b, readsB, rest⟩ := rest
        cases b with
        | none => cases rest
        | some b =>
            have fieldB := parseIntField_eq_ok_iff.mp readsB
            rcases bind_eq_error.mp rest with third | rest
            · exact .c fieldA fieldB ((throws _).mpr ⟨raised, third⟩)
            obtain ⟨c, readsC, rest⟩ := rest
            cases c with
            | none => cases rest
            | some c => cases rest
  · intro overflows
    cases overflows with
    | a overflows =>
        obtain ⟨raised, thrown⟩ := (throws _).mp overflows
        exact ⟨raised, bind_eq_error.mpr (.inl thrown)⟩
    | b a overflows =>
        obtain ⟨raised, thrown⟩ := (throws _).mp overflows
        have readsA := parseIntField_eq_ok_iff.mpr a
        exact ⟨raised, bind_eq_error.mpr (.inr ⟨_, readsA,
          bind_eq_error.mpr (.inl thrown)⟩)⟩
    | c a b overflows =>
        obtain ⟨raised, thrown⟩ := (throws _).mp overflows
        have readsA := parseIntField_eq_ok_iff.mpr a
        have readsB := parseIntField_eq_ok_iff.mpr b
        exact ⟨raised, bind_eq_error.mpr (.inr ⟨_, readsA,
          bind_eq_error.mpr (.inr ⟨_, readsB,
            bind_eq_error.mpr (.inl thrown)⟩)⟩)⟩

/-! ## The loop over the objects -/

/-- The first object of a body is what the loop scans. -/
theorem objectAt_iff : ObjectAt body obj rest ↔
    ∃ start, find (text "\x7b") body = some start ∧
      scanClosing '\x7b'.toUInt8 '\x7d'.toUInt8 0 start =
        some (obj, rest) := by
  constructor
  · intro here
    obtain ⟨gap, whole, free, closes⟩ := here
    obtain ⟨inside, same⟩ := closes.exists_body (by decide)
    subst same
    refine ⟨123 :: ((inside ++ [125]) ++ rest), ?_, ?_⟩
    · rw [whole]
      exact find_one free
    · exact (scanClosing_eq_some_iff (by decide)).mpr ⟨rfl, closes⟩
  · intro found
    obtain ⟨start, found, scanned⟩ := found
    have brace : find [123] body = some start := found
    obtain ⟨gap, later, split, free, same⟩ := find_one_eq_some_iff.mp brace
    subst same
    have divided : scanClosing 123 125 0 (123 :: later) = some (obj, rest) :=
      scanned
    obtain ⟨whole, closes⟩ :=
      (scanClosing_eq_some_iff (by decide)).mp divided
    refine ⟨gap, ?_, free, closes⟩
    rw [split, whole]

theorem ObjectAt.unique {other others : Text}
    (here : ObjectAt body obj rest) (also : ObjectAt body other others) :
    obj = other ∧ rest = others := by
  rw [objectAt_iff] at here also
  obtain ⟨start, found, scanned⟩ := here
  obtain ⟨again, alsoFound, alsoScanned⟩ := also
  rw [found] at alsoFound
  cases alsoFound
  rw [scanned] at alsoScanned
  cases alsoScanned
  exact ⟨rfl, rfl⟩

/-- What raises in a body raises in its first object or behind it. -/
theorem raises_iff (here : ObjectAt body obj rest) :
    Raises count body ↔ ∃ name opcode,
      parseStringField obj (text "opcode") = some name ∧
      opcodeFromString name = some opcode ∧
      ((∃ raised, parseOperands obj = .error raised) ∨
        ∃ a b c, parseOperands obj = .ok (some (a, b, c)) ∧
          (maxInsns ≤ count ∨ Raises (count + 1) rest)) := by
  constructor
  · intro raises
    cases raises with
    | @operand _ _ _ _ name opcode also spelled known overflows =>
        obtain ⟨sameObj, _⟩ := here.unique also
        rw [← parseOperands_error_iff] at overflows
        rw [sameObj]
        exact ⟨name, opcode, parseStringField_eq_some_iff.mpr spelled, known,
          .inl overflows⟩
    | @full _ _ _ _ name insn also spelled known a b c full =>
        obtain ⟨sameObj, _⟩ := here.unique also
        rw [sameObj]
        exact ⟨name, insn.opcode, parseStringField_eq_some_iff.mpr spelled,
          known, .inr ⟨insn.a, insn.b, insn.c,
            parseOperands_eq_ok_iff.mpr ⟨a, b, c⟩, .inl full⟩⟩
    | @later _ _ _ _ name insn also spelled known a b c raises =>
        obtain ⟨sameObj, sameRest⟩ := here.unique also
        rw [sameObj, sameRest]
        exact ⟨name, insn.opcode, parseStringField_eq_some_iff.mpr spelled,
          known, .inr ⟨insn.a, insn.b, insn.c,
            parseOperands_eq_ok_iff.mpr ⟨a, b, c⟩, .inr raises⟩⟩
  · intro given
    obtain ⟨name, opcode, spelled, known, throws⟩ := given
    have spelled := parseStringField_eq_some_iff.mp spelled
    rcases throws with thrown | complete
    · rw [parseOperands_error_iff] at thrown
      exact .operand here spelled known thrown
    · obtain ⟨a, b, c, read, behind⟩ := complete
      obtain ⟨fieldA, fieldB, fieldC⟩ := parseOperands_eq_ok_iff.mp read
      let insn : Insn := { opcode, a, b, c }
      have known : opcodeFromString name = some insn.opcode := known
      rcases behind with full | raises
      · exact .full here spelled known fieldA fieldB fieldC full
      · exact .later here spelled known fieldA fieldB fieldC raises

/-- Without an object nothing raises. -/
theorem not_raises (missing : ∀ obj rest, ¬ ObjectAt body obj rest) :
    ¬ Raises count body := by
  intro raises
  cases raises with
  | operand here | full here | later here => exact missing _ _ here

/-- A turn of the loop returns a result, throws, or goes on behind the first
object, and the body raises accordingly. -/
inductive Turn (out : ProgramLoadResult) (fuel : Nat) (body : Text) :
    Except StdException ProgramLoadResult → Prop where
  | returns {final : ProgramLoadResult} (reported : Reported final)
      (nothing : ¬ Raises out.program.insns.length body) :
      Turn out fuel body (.ok final)
  | throws {raised : StdException}
      (raises : Raises out.program.insns.length body) :
      Turn out fuel body (.error raised)
  | goesOn {obj rest : Text} {program : Program}
      (here : ObjectAt body obj rest)
      (same : Raises out.program.insns.length body ↔
        Raises program.insns.length rest) :
      Turn out fuel body (loadObjects { out with program } fuel rest)

/-- A turn that has read its operands adds the instruction, or throws where
the vector is full. -/
theorem turn_of_insn {insn : Insn} (here : ObjectAt body obj rest)
    (raises : Raises out.program.insns.length body ↔
      maxInsns ≤ out.program.insns.length ∨
        Raises (out.program.insns.length + 1) rest) :
    Turn out fuel body (pushInsn out.program insn >>= fun program =>
      loadObjects { out with program } fuel rest) := by
  by_cases room : out.program.insns.length < maxInsns
  · obtain ⟨program, pushed, added, _⟩ :=
      @pushInsn_room out.program insn room
    have goes : (pushInsn out.program insn >>= fun program =>
        loadObjects { out with program } fuel rest) =
          loadObjects { out with program } fuel rest := by
      rw [pushed]
      rfl
    rw [goes]
    apply Turn.goesOn here
    rw [raises, added, List.length_append, List.length_singleton]
    simp [Nat.not_le.mpr room]
  · have full : maxInsns ≤ out.program.insns.length := Nat.le_of_not_lt room
    have thrown : pushInsn out.program insn = .error .lengthError := by
      rw [pushInsn, dif_neg room]
    rw [thrown]
    exact Turn.throws (raises.mpr (.inl full))

/-- A turn that finds an object. -/
theorem turn_of_object (here : ObjectAt body obj rest) :
    Turn out fuel body (loadObjects out (fuel + 1) body) := by
  have inside : Raises out.program.insns.length body ↔ _ := raises_iff here
  have scans := here
  rw [objectAt_iff] at scans
  obtain ⟨start, found, scanned⟩ := scans
  rw [loadObjects]
  simp only [found, scanned]
  cases spelled : parseStringField obj (text "opcode") with
  | none =>
      have message : text "missing opcode in insn object" ≠ [] := by decide
      apply Turn.returns (.inr message)
      intro raises
      obtain ⟨name, opcode, again, _⟩ := inside.mp raises
      rw [spelled] at again
      cases again
  | some opname =>
      cases known : opcodeFromString opname with
      | none =>
          have message : text "unknown opcode in json program: " ++ opname ≠
              [] := List.append_ne_nil_of_left_ne_nil (by decide) _
          simp only [known]
          apply Turn.returns (.inr message)
          intro raises
          obtain ⟨name, opcode, again, named, _⟩ := inside.mp raises
          rw [spelled] at again
          cases again
          rw [known] at named
          cases named
      | some opcode =>
          simp only [known]
          cases read : parseOperands obj with
          | error raised =>
              apply Turn.throws
              exact inside.mpr ⟨opname, opcode, spelled, known,
                .inl ⟨raised, read⟩⟩
          | ok operands =>
              cases operands with
              | none =>
                  have message : text
                      "insn object requires integer fields a,b,c" ≠ [] := by
                    decide
                  apply Turn.returns (.inr message)
                  intro raises
                  obtain ⟨_, _, _, _, thrown | complete⟩ := inside.mp raises
                  · obtain ⟨raised, again⟩ := thrown
                    rw [read] at again
                    cases again
                  · obtain ⟨_, _, _, again, _⟩ := complete
                    rw [read] at again
                    cases again
              | some values =>
                  obtain ⟨a, b, c⟩ := values
                  have raises : Raises out.program.insns.length body ↔
                      maxInsns ≤ out.program.insns.length ∨
                        Raises (out.program.insns.length + 1) rest := by
                    constructor
                    · intro raises
                      obtain ⟨_, _, _, _, thrown | complete⟩ :=
                        inside.mp raises
                      · obtain ⟨raised, again⟩ := thrown
                        rw [read] at again
                        cases again
                      · obtain ⟨_, _, _, _, behind⟩ := complete
                        exact behind
                    · intro behind
                      exact inside.mpr ⟨opname, opcode, spelled, known,
                        .inr ⟨a, b, c, read, behind⟩⟩
                  exact turn_of_insn here raises

/-- A turn that finds no object. -/
theorem turn_of_no_object (missing : ∀ obj rest, ¬ ObjectAt body obj rest) :
    Turn out fuel body (loadObjects out (fuel + 1) body) := by
  have nothing : ¬ Raises out.program.insns.length body := not_raises missing
  cases found : find (text "\x7b") body with
  | none =>
      rw [loadObjects_of_find_eq_none found]
      by_cases empty : out.program.insns.isEmpty = true
      · have message : text "insns array is empty" ≠ [] := by decide
        rw [if_pos empty]
        exact .returns (.inr message) nothing
      · rw [if_neg empty]
        exact .returns (.inl rfl) nothing
  | some start =>
      rw [loadObjects, found]
      cases scanned : scanClosing '\x7b'.toUInt8 '\x7d'.toUInt8 0 start with
      | none =>
          have message : text "unterminated insn object" ≠ [] := by decide
          simp only [scanned]
          exact .returns (.inr message) nothing
      | some divided =>
          exact absurd (objectAt_iff.mpr ⟨start, found, scanned⟩)
            (missing _ _)

/-- The rest behind an object is shorter. -/
theorem ObjectAt.shorter (here : ObjectAt body obj rest) :
    rest.length < body.length := by
  obtain ⟨gap, whole, _, closes⟩ := here
  obtain ⟨inside, same⟩ := closes.exists_body (by decide)
  rw [whole, same]
  simp only [List.length_append, List.length_cons]
  omega

/-- The loop returns a result, or throws where the body raises. -/
theorem loadObjects_outcome (enough : body.length < fuel) :
    (∃ final, loadObjects out fuel body = .ok final ∧ Reported final ∧
      ¬ Raises out.program.insns.length body) ∨
    ∃ raised, loadObjects out fuel body = .error raised ∧
      Raises out.program.insns.length body := by
  induction fuel generalizing out body with
  | zero => exact absurd enough (Nat.not_lt_zero _)
  | succ fuel induction =>
      have turn : Turn out fuel body (loadObjects out (fuel + 1) body) := by
        by_cases found : ∃ obj rest, ObjectAt body obj rest
        · obtain ⟨obj, rest, here⟩ := found
          exact turn_of_object here
        · apply turn_of_no_object
          intro obj rest here
          exact found ⟨obj, rest, here⟩
      generalize loadObjects out (fuel + 1) body = outcome at turn
      cases turn with
      | returns reported nothing => exact .inl ⟨_, rfl, reported, nothing⟩
      | throws raises => exact .inr ⟨_, rfl, raises⟩
      | @goesOn obj rest program here same =>
          rw [same]
          have shorter := here.shorter
          exact @induction rest { out with program } (by omega)

/-! ## Files -/

variable {input : Text}

/-- A document is reported on, or throws where its array raises. -/
theorem loadTiscJsonV1_outcome (input : Text) :
    (∃ out, loadTiscJsonV1 input = .ok out ∧ Reported out ∧
      ¬ DocumentRaises input) ∨
    ∃ raised, loadTiscJsonV1 input = .error raised ∧
      DocumentRaises input := by
  by_cases found : ∃ body, ArrayBody input body
  · obtain ⟨body, array⟩ := found
    have same : DocumentRaises input ↔ Raises 0 body := by
      constructor
      · intro raises
        obtain ⟨other, otherArray, raises⟩ := raises
        rw [array.unique otherArray]
        exact raises
      · intro raises
        exact ⟨body, array, raises⟩
    rw [loadTiscJsonV1_of_arrayBody array, same]
    exact loadObjects_outcome (Nat.lt_succ_self _)
  · obtain ⟨message, nonempty, refuses⟩ :=
      loadTiscJsonV1_of_no_array (not_exists.mp found)
    refine .inl ⟨_, refuses, .inr nonempty, ?_⟩
    intro raises
    obtain ⟨body, array, _⟩ := raises
    exact found ⟨body, array⟩

/-- A line ends the loop with a message only. -/
theorem error_of_loadLine {line : Text}
    (ends : loadLine out line = .ok (final, false)) : final.error ≠ [] := by
  by_cases statement : isStatement line = true
  · rw [loadLine_statement statement] at ends
    cases read : readInsn line with
    | none =>
        simp only [read] at ends
        cases ends
        exact List.append_ne_nil_of_left_ne_nil (by decide) _
    | some insn =>
        simp only [read] at ends
        obtain ⟨program, _, same⟩ := bind_eq_ok.mp ends
        cases same
  · rw [Bool.not_eq_true] at statement
    obtain ⟨policy, goesOn⟩ := @loadLine_other line out statement
    rw [goesOn] at ends
    cases ends

/-- A text that does not throw is reported on. -/
theorem reported_of_loadLines {lines : List Text}
    (loads : loadLines out lines = .ok final) : Reported final := by
  induction lines generalizing out with
  | nil =>
      cases loads
      exact .inl rfl
  | cons line lines induction =>
      rw [loadLines_cons] at loads
      obtain ⟨answer, read, rest⟩ := bind_eq_ok.mp loads
      obtain ⟨middle, goesOn⟩ := answer
      cases goesOn with
      | true => exact induction rest
      | false =>
          cases rest
          exact .inr (error_of_loadLine read)

/-- A text returns a result, or throws when there are too many
instructions. -/
theorem loadTextV1_outcome (input : Text) :
    (∃ out, loadTextV1 input = .ok out ∧ Reported out ∧
      ¬ TextRaises input) ∨
    ∃ raised, loadTextV1 input = .error raised ∧ TextRaises input := by
  by_cases long : TextRaises input
  · exact .inr ⟨.lengthError, loadTextV1_error long, long⟩
  · have returns : ∃ out, loadTextV1 input = .ok out := by
      have short : ((statements input).takeWhile hasOpcode).length ≤
          maxInsns := Nat.le_of_not_lt long
      by_cases all : ∀ line ∈ statements input, hasOpcode line = true
      · obtain ⟨insns, read⟩ := exists_read all
        rw [List.takeWhile_eq_self_iff.mpr all, read.length_eq] at short
        obtain ⟨out, loads, _⟩ := loadTextV1_known read short
        exact ⟨out, loads⟩
      · obtain ⟨out, loads, _⟩ := loadTextV1_refused short all
        exact ⟨out, loads⟩
    obtain ⟨out, loads⟩ := returns
    exact .inl ⟨out, loads, reported_of_loadLines loads, long⟩

/-- The content of a file raises in the format its path asks for. -/
def ContentRaises (content : Option Text) (path : Text) : Prop :=
  ∃ input, content = some input ∧
    if looksLikeJsonPath path = true then DocumentRaises input
    else TextRaises input

/-- A load returns a program or an error message exactly when the content of
the file does not raise. -/
theorem loadReturns_iff (content : Option Text) (path : Text) :
    LoadReturns content path ↔ ¬ ContentRaises content path := by
  have decided : (∃ out, loadProgramFromFile content path = .ok out ∧
        Reported out ∧ ¬ ContentRaises content path) ∨
      ∃ raised, loadProgramFromFile content path = .error raised ∧
        ContentRaises content path := by
    cases content with
    | none =>
        have message : text "unable to open file: " ++ path ≠ [] :=
          List.append_ne_nil_of_left_ne_nil (by decide) _
        refine .inl ⟨_, rfl, .inr message, ?_⟩
        intro raises
        obtain ⟨input, none, _⟩ := raises
        cases none
    | some input =>
        have same : ContentRaises (some input) path ↔
            if looksLikeJsonPath path = true then DocumentRaises input
            else TextRaises input := by
          constructor
          · intro raises
            obtain ⟨other, same, raises⟩ := raises
            cases same
            exact raises
          · intro raises
            exact ⟨input, rfl, raises⟩
        rw [same, loadProgramFromFile]
        by_cases json : looksLikeJsonPath path = true
        · simp only [json, if_true]
          exact loadTiscJsonV1_outcome input
        · simp only [json, Bool.false_eq_true, if_false]
          exact loadTextV1_outcome input
  rcases decided with returns | throws
  · obtain ⟨out, loads, reported, nothing⟩ := returns
    exact iff_of_true ⟨out, loads, reported⟩ nothing
  · obtain ⟨raised, thrown, raises⟩ := throws
    apply iff_of_false _ (not_not_intro raises)
    intro returns
    obtain ⟨out, loads, _⟩ := returns
    rw [thrown] at loads
    cases loads

/-- A document with an operand of 2 ^ 63. -/
def hugeOperand : Text :=
  text "\x7b\"insns\":[\x7b\"opcode\":\"Halt\",\"a\":9223372036854775808,"
    ++ text "\"b\":0,\"c\":0\x7d]\x7d"

/-- Loading it throws. -/
theorem not_loadReturns_hugeOperand :
    ¬ LoadReturns (some hugeOperand) (text "program.json") := by
  intro returns
  obtain ⟨out, loads, _⟩ := returns
  have thrown : loadProgramFromFile (some hugeOperand) (text "program.json") =
      .error .outOfRange := by decide +kernel
  rw [thrown] at loads
  cases loads

end T81VM.ProgramIo
