import Mathlib.Data.List.Forall2
import T81VM.Library.Json
import T81VM.ProgramIo.Fields

/-!
# The document grammar

The documents of TISC JSON V1 as JSON texts, and what the loader accepts
instead of them: a few fragments of the text, wherever they stand.
-/

namespace T81VM.ProgramIo

open Tisc Scan

/-! ## The grammar -/

/-- The object has the key, with this integer. -/
def HasInteger (members : List Json.Member) (key : Text) (value : Int64) :
    Prop :=
  ∃ name word, (name, [.literal word]) ∈ members ∧ Json.decode name = key ∧
    Json.Integer word value.toInt

/-- The element is an object with an opcode string and these operands. -/
def InsnObject (element : List Json.Token) (insn : Insn) : Prop :=
  ∃ members, element = Json.objectTokens members ∧
    (∃ name content, (name, [.string content]) ∈ members ∧
      Json.decode name = text "opcode") ∧
    HasInteger members (text "a") insn.a ∧
    HasInteger members (text "b") insn.b ∧
    HasInteger members (text "c") insn.c

/-- The text is one JSON object with an array `insns` of instruction objects,
at least one. -/
def Conforming (input : Text) (insns : List Insn) : Prop :=
  ∃ members elements name,
    (∀ member ∈ members, Json.Value member.2) ∧
    Json.Spaced (Json.objectTokens members) input ∧
    (name, Json.arrayTokens elements) ∈ members ∧
    Json.decode name = text "insns" ∧ elements ≠ [] ∧
    List.Forall₂ InsnObject elements insns

/-- The loader accepts the text only as a document of these instructions. -/
def JsonSound (input : Text) : Prop :=
  ∀ out, loadTiscJsonV1 input = .ok out → out.ok = true →
    Conforming input out.program.insns

/-! ## Fragments -/

/-- Stretches of text in balanced braces, each with the fields of an
instruction somewhere in it, and anything without a brace between them. -/
inductive Objects : Text → List Insn → Prop where
  | done {gap : Text} (free : 123 ∉ gap) : Objects gap []
  | next {gap obj rest name : Text} {insn : Insn} {insns : List Insn}
      (free : 123 ∉ gap) (closes : Closes 123 125 obj)
      (spelled : StringField obj (text "opcode") name)
      (known : opcodeFromString name = some insn.opcode)
      (a : IntField obj (text "a") insn.a)
      (b : IntField obj (text "b") insn.b)
      (c : IntField obj (text "c") insn.c)
      (later : Objects rest insns) :
      Objects (gap ++ (obj ++ rest)) (insn :: insns)

/-- The array the loader reads: the first word `"insns"`, and the brackets
behind it around the body. -/
def ArrayBody (input body : Text) : Prop :=
  ∃ front key skipped after, input = front ++ key ∧
    First (text "\"insns\"" <+: ·) front key ∧
    key = skipped ++ (91 :: (body ++ [93]) ++ after) ∧ 91 ∉ skipped ∧
    Closes 91 93 (91 :: (body ++ [93]))

/-- The fragments of a document: the array, and the fragments of
instructions in its body. -/
def Fragments (input : Text) (insns : List Insn) : Prop :=
  ∃ body, ArrayBody input body ∧ Objects body insns ∧ insns ≠ []

variable {opening closing : UInt8} {inside obj body : Text} {insn : Insn}
  {insns : List Insn} {out final : ProgramLoadResult} {fuel : Nat}

/-- A closed bracket is a pair around a body. -/
theorem Closes.exists_body (differ : opening ≠ closing)
    (closes : Closes opening closing inside) :
    ∃ body, inside = opening :: (body ++ [closing]) := by
  obtain ⟨others, rfl⟩ := List.head?_eq_some_iff.mp closes.opens
  have balanced := closes.balanced
  rw [List.count_cons_self, List.count_cons_of_ne differ] at balanced
  have nonempty : others ≠ [] := by
    intro empty
    simp [empty] at balanced
  obtain ⟨body, last, rfl⟩ := (List.eq_nil_or_concat' others).resolve_left
    nonempty
  have below := closes.inner (opening :: body)
    ⟨[last], List.cons_append⟩ (List.cons_ne_nil _ _) (by simp)
  rw [List.count_cons_self, List.count_cons_of_ne differ] at below
  rw [List.count_append, List.count_append] at balanced
  by_cases same : last = closing
  · rw [same]
    exact ⟨body, rfl⟩
  · have none : [last].count closing = 0 := by
      apply List.count_eq_zero_of_not_mem
      simpa using Ne.symm same
    omega

theorem parseOperands_eq_ok_iff {a b c : Int64} :
    parseOperands obj = .ok (some (a, b, c)) ↔
      IntField obj (text "a") a ∧ IntField obj (text "b") b ∧
        IntField obj (text "c") c := by
  simp only [← parseIntField_eq_ok_iff]
  rw [parseOperands]
  cases readsA : parseIntField obj (text "a") with
  | error thrown => simp [bind, Except.bind]
  | ok first =>
      cases first with
      | none => simp [bind, Except.bind, pure, Except.pure]
      | some valueA =>
          cases readsB : parseIntField obj (text "b") with
          | error thrown => simp [bind, Except.bind]
          | ok second =>
              cases second with
              | none => simp [bind, Except.bind, pure, Except.pure]
              | some valueB =>
                  cases readsC : parseIntField obj (text "c") with
                  | error thrown => simp [bind, Except.bind]
                  | ok third =>
                      cases third with
                      | none => simp [bind, Except.bind, pure, Except.pure]
                      | some valueC =>
                          simp [bind, Except.bind, pure, Except.pure]

theorem pushInsn_eq_ok {program next : Program}
    (pushed : pushInsn program insn = .ok next) :
    next.insns = program.insns ++ [insn] ∧
      next.axionPolicyText = program.axionPolicyText := by
  rw [pushInsn] at pushed
  split at pushed
  · cases pushed
    exact ⟨rfl, rfl⟩
  · cases pushed

/-- The loop stops where no brace is left. -/
theorem loadObjects_done (free : 123 ∉ body)
    (nonempty : out.program.insns ≠ []) :
    loadObjects out (fuel + 1) body = .ok { out with ok := true } := by
  have none : find (text "\x7b") body = none := find_one_eq_none_iff.mpr free
  rw [loadObjects_of_find_eq_none none]
  exact if_neg (by simpa using nonempty)

/-- One turn of the loop adds the instruction of one object. -/
theorem loadObjects_turn {gap rest name : Text} (free : 123 ∉ gap)
    (closes : Closes 123 125 obj)
    (spelled : StringField obj (text "opcode") name)
    (known : opcodeFromString name = some insn.opcode)
    (a : IntField obj (text "a") insn.a) (b : IntField obj (text "b") insn.b)
    (c : IntField obj (text "c") insn.c) :
    loadObjects out (fuel + 1) (gap ++ (obj ++ rest)) =
      (pushInsn out.program insn >>= fun program =>
        loadObjects { out with program } fuel rest) := by
  obtain ⟨inside, rfl⟩ := closes.exists_body (by decide)
  have found : find (text "\x7b") (gap ++ (123 :: (inside ++ [125]) ++ rest)) =
      some (123 :: ((inside ++ [125]) ++ rest)) := find_one free
  have scanned : scanClosing '\x7b'.toUInt8 '\x7d'.toUInt8 0
      (123 :: ((inside ++ [125]) ++ rest)) =
      some (123 :: (inside ++ [125]), rest) :=
    (scanClosing_eq_some_iff (by decide)).mpr ⟨rfl, closes⟩
  have operands := parseOperands_eq_ok_iff.mpr ⟨a, b, c⟩
  rw [loadObjects, found]
  simp only [scanned, parseStringField_eq_some_iff.mpr spelled, known,
    operands]
  rfl

/-- A turn of an accepting loop is the last one, or finds the fragments of an
instruction. -/
theorem loadObjects_accepts (notYet : out.ok = false)
    (loads : loadObjects out (fuel + 1) body = .ok final)
    (accepted : final.ok = true) :
    (123 ∉ body ∧ out.program.insns ≠ [] ∧ final = { out with ok := true }) ∨
      ∃ gap obj rest name insn program, body = gap ++ (obj ++ rest) ∧
        123 ∉ gap ∧ Closes 123 125 obj ∧
        StringField obj (text "opcode") name ∧
        opcodeFromString name = some insn.opcode ∧
        IntField obj (text "a") insn.a ∧ IntField obj (text "b") insn.b ∧
        IntField obj (text "c") insn.c ∧
        pushInsn out.program insn = .ok program ∧
        loadObjects { out with program } fuel rest = .ok final := by
  have refused : ∀ {message : Text},
      Except.ok { out with error := message } ≠
        (.ok final : Except StdException ProgramLoadResult) := by
    intro message same
    cases same
    rw [notYet] at accepted
    cases accepted
  rw [loadObjects] at loads
  cases found : find (text "\x7b") body with
  | none =>
      left
      simp only [found] at loads
      split at loads
      · exact absurd loads refused
      · rename_i nonempty
        cases loads
        exact ⟨find_one_eq_none_iff.mp found, by simpa using nonempty, rfl⟩
  | some start =>
      right
      simp only [found] at loads
      have brace : find [123] body = some start := found
      obtain ⟨gap, later, rfl, free, rfl⟩ := find_one_eq_some_iff.mp brace
      obtain ⟨⟨obj, rest⟩, scanned⟩ : ∃ divided,
          scanClosing 123 125 0 (123 :: later) = some divided := by
        apply Option.ne_none_iff_exists'.mp
        intro none
        have unterminated : scanClosing '\x7b'.toUInt8 '\x7d'.toUInt8 0
            (123 :: later) = Option.none := none
        simp only [unterminated] at loads
        exact refused loads
      have divided : scanClosing '\x7b'.toUInt8 '\x7d'.toUInt8 0
          (123 :: later) = some (obj, rest) := scanned
      simp only [divided] at loads
      obtain ⟨whole, closes⟩ :=
        (scanClosing_eq_some_iff (by decide)).mp scanned
      obtain ⟨name, spelled⟩ : ∃ name,
          parseStringField obj (text "opcode") = some name := by
        apply Option.ne_none_iff_exists'.mp
        intro missing
        simp only [missing] at loads
        exact refused loads
      simp only [spelled] at loads
      obtain ⟨opcode, known⟩ : ∃ opcode,
          opcodeFromString name = some opcode := by
        apply Option.ne_none_iff_exists'.mp
        intro unknown
        simp only [unknown] at loads
        exact refused loads
      simp only [known] at loads
      obtain ⟨operands, read, pushes⟩ := bind_eq_ok.mp loads
      cases operands with
      | none => exact absurd pushes refused
      | some values =>
          obtain ⟨a, b, c⟩ := values
          obtain ⟨program, pushed, others⟩ := bind_eq_ok.mp pushes
          rw [parseOperands_eq_ok_iff] at read
          obtain ⟨readsA, readsB, readsC⟩ := read
          rw [whole]
          exact ⟨gap, obj, rest, name, ⟨opcode, a, b, c⟩, program, rfl, free,
            closes, parseStringField_eq_some_iff.mp spelled, known, readsA,
            readsB, readsC, pushed, others⟩

/-- What the loop accepts are fragments of instructions. -/
theorem objects_of_loadObjects (notYet : out.ok = false)
    (loads : loadObjects out fuel body = .ok final)
    (accepted : final.ok = true) :
    ∃ insns, Objects body insns ∧
      final.program.insns = out.program.insns ++ insns ∧
      final.program.insns ≠ [] ∧
      final.program.axionPolicyText = out.program.axionPolicyText := by
  induction fuel generalizing out body with
  | zero =>
      rw [loadObjects_zero] at loads
      cases loads
      rw [notYet] at accepted
      cases accepted
  | succ fuel induction =>
      rcases loadObjects_accepts notYet loads accepted with
        ⟨free, nonempty, rfl⟩ |
        ⟨gap, obj, rest, name, insn, program, rfl, free, closes, spelled,
          known, a, b, c, pushed, others⟩
      · exact ⟨[], .done free, (List.append_nil _).symm, nonempty, rfl⟩
      · obtain ⟨added, kept⟩ := pushInsn_eq_ok pushed
        have ready : { out with program }.ok = false := notYet
        obtain ⟨insns, objects, all, nonempty, policy⟩ :=
          induction ready others
        refine ⟨insn :: insns, ?_, ?_, nonempty, policy.trans kept⟩
        · exact .next free closes spelled known a b c objects
        · rw [all, added, List.append_assoc]
          rfl

/-- The loop accepts fragments of instructions, if the program can hold
them. -/
theorem loadObjects_of_objects (objects : Objects body insns)
    (enough : body.length < fuel)
    (room : out.program.insns.length + insns.length ≤ maxInsns)
    (nonempty : out.program.insns ++ insns ≠ []) :
    ∃ program, loadObjects out fuel body = .ok { out with ok := true, program } ∧
      program.insns = out.program.insns ++ insns ∧
      program.axionPolicyText = out.program.axionPolicyText := by
  induction objects generalizing out fuel with
  | done free =>
      obtain ⟨fuel, rfl⟩ : ∃ less, fuel = less + 1 := ⟨fuel - 1, by omega⟩
      rw [List.append_nil] at nonempty
      refine ⟨out.program, loadObjects_done free nonempty, ?_, rfl⟩
      exact (List.append_nil _).symm
  | @next gap obj rest name insn insns free closes spelled known a b c later
      induction =>
      obtain ⟨fuel, rfl⟩ : ∃ less, fuel = less + 1 := ⟨fuel - 1, by omega⟩
      rw [List.length_cons] at room
      obtain ⟨program, pushed, added, kept⟩ :=
        @pushInsn_room out.program insn (by omega)
      have shorter : rest.length < fuel := by
        obtain ⟨inside, rfl⟩ := closes.exists_body (by decide)
        simp only [List.length_append, List.length_cons] at enough
        omega
      obtain ⟨final, loads, all, policy⟩ :=
        @induction { out with program } fuel shorter
          (by
            rw [added, List.length_append, List.length_singleton]
            omega)
          (by simp [added])
      refine ⟨final, ?_, ?_, policy.trans kept⟩
      · rw [loadObjects_turn free closes spelled known a b c, pushed]
        exact loads
      · rw [all, added, List.append_assoc]
        rfl

/-! ## Documents -/

/-- The result of a document before its instructions are read. -/
def startDocument (input : Text) : ProgramLoadResult where
  format := .tiscJsonV1
  program := { emptyProgram with
    axionPolicyText :=
      (parseStringField input (text "axion_policy_text")).getD [] }

variable {input : Text}

/-- The loader reads the objects of the array. -/
theorem loadTiscJsonV1_of_arrayBody (array : ArrayBody input body) :
    loadTiscJsonV1 input =
      loadObjects (startDocument input) (body.length + 1) body := by
  obtain ⟨front, key, skipped, after, whole, first, split, free, closes⟩ :=
    array
  have found : find (text "\"insns\"") input = some key :=
    find_eq_some_iff.mpr ⟨front, whole, first⟩
  have opened : find (text "[") key =
      some (91 :: ((body ++ [93]) ++ after)) :=
    find_one_eq_some_iff.mpr ⟨skipped, _, split, free, rfl⟩
  have scanned : scanClosing '['.toUInt8 ']'.toUInt8 0
      (91 :: ((body ++ [93]) ++ after)) =
      some (91 :: (body ++ [93]), after) :=
    (scanClosing_eq_some_iff (by decide)).mpr ⟨rfl, closes⟩
  rw [loadTiscJsonV1, found]
  simp only [opened, scanned, List.tail_cons, List.dropLast_concat]
  rfl

/-- A document has at most one array that is read. -/
theorem ArrayBody.unique {other : Text} (array : ArrayBody input body)
    (otherArray : ArrayBody input other) : body = other := by
  obtain ⟨front, key, skipped, after, whole, first, split, free, closes⟩ :=
    array
  obtain ⟨otherFront, otherKey, otherSkipped, otherAfter, otherWhole,
    otherFirst, otherSplit, otherFree, otherCloses⟩ := otherArray
  obtain ⟨_, rfl⟩ := first.unique otherFirst (whole.symm.trans otherWhole)
  obtain ⟨_, same⟩ := eq_of_marked free otherFree (split.symm.trans otherSplit)
  obtain ⟨equal, _⟩ := closes.unique (by decide) otherCloses
    (congrArg (91 :: ·) same)
  simpa using equal

/-- Without an array the loader reports an error. -/
theorem loadTiscJsonV1_of_no_array (missing : ∀ body, ¬ ArrayBody input body) :
    ∃ message, message ≠ [] ∧ loadTiscJsonV1 input =
      .ok { startDocument input with error := message } := by
  rw [loadTiscJsonV1]
  cases found : find (text "\"insns\"") input with
  | none => exact ⟨text "missing insns array", by decide, rfl⟩
  | some key =>
      obtain ⟨front, whole, first⟩ := find_eq_some_iff.mp found
      cases opened : find (text "[") key with
      | none =>
          simp only [opened]
          exact ⟨text "invalid insns array", by decide, rfl⟩
      | some start =>
          have bracket : find [91] key = some start := opened
          obtain ⟨skipped, later, split, free, rfl⟩ :=
            find_one_eq_some_iff.mp bracket
          cases scanned : scanClosing '['.toUInt8 ']'.toUInt8 0
              (91 :: later) with
          | none =>
              simp only [opened, scanned]
              exact ⟨text "unterminated insns array", by decide, rfl⟩
          | some divided =>
              obtain ⟨array, after⟩ := divided
              obtain ⟨rest, closes⟩ :=
                (scanClosing_eq_some_iff (by decide)).mp scanned
              obtain ⟨body, rfl⟩ := closes.exists_body (by decide)
              have stands : ArrayBody input body := by
                refine ⟨front, key, skipped, after, whole, first, ?_, free,
                  closes⟩
                rw [split]
                exact congrArg _ rest
              exact absurd stands (missing body)

/-- Without an array nothing is accepted. -/
theorem arrayBody_of_loadTiscJsonV1 (loads : loadTiscJsonV1 input = .ok out)
    (accepted : out.ok = true) : ∃ body, ArrayBody input body := by
  by_contra missing
  obtain ⟨message, _, refuses⟩ :=
    loadTiscJsonV1_of_no_array (not_exists.mp missing)
  rw [loads] at refuses
  cases refuses
  cases accepted

/-- What the loader accepts are fragments of a document. -/
theorem fragments_of_loadTiscJsonV1 (loads : loadTiscJsonV1 input = .ok out)
    (accepted : out.ok = true) :
    Fragments input out.program.insns ∧
      out.program.axionPolicyText =
        (parseStringField input (text "axion_policy_text")).getD [] := by
  obtain ⟨body, array⟩ := arrayBody_of_loadTiscJsonV1 loads accepted
  rw [loadTiscJsonV1_of_arrayBody array] at loads
  obtain ⟨insns, objects, all, nonempty, policy⟩ :=
    objects_of_loadObjects rfl loads accepted
  have same : out.program.insns = insns := all
  rw [same] at nonempty ⊢
  exact ⟨⟨body, array, objects, nonempty⟩, policy⟩

/-- The loader accepts the fragments of a document. -/
theorem loadTiscJsonV1_of_fragments (fragments : Fragments input insns)
    (room : insns.length ≤ maxInsns) :
    ∃ program, loadTiscJsonV1 input = .ok
        { ok := true, format := .tiscJsonV1, program, error := [] } ∧
      program.insns = insns ∧ program.axionPolicyText =
        (parseStringField input (text "axion_policy_text")).getD [] := by
  obtain ⟨body, array, objects, nonempty⟩ := fragments
  rw [loadTiscJsonV1_of_arrayBody array]
  apply loadObjects_of_objects objects (Nat.lt_succ_self _)
  · simpa [startDocument, emptyProgram] using room
  · simpa [startDocument, emptyProgram] using nonempty

/-- An array without an object around it. -/
def bareArray : Text :=
  text "\"insns\"[\x7b\"opcode\":\"Halt\",\"a\":0,\"b\":0,\"c\":0\x7d]"

end T81VM.ProgramIo
