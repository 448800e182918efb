import Mathlib.Data.List.Nodup
import T81VM.ProgramIo.JsonDocuments

/-!
# The array of instructions

Instruction objects in the text of a document: their fields are read if none
of their strings has an escape, and the objects of the array one by one.
-/

namespace T81VM.ProgramIo

open Tisc Scan

variable {name content key : List Json.Part} {byte : UInt8}

/-! ## Instruction objects -/

section Elements

variable {element : List Json.Token} {insn : Insn} {obj : Text}

theorem mem_strings {tokens : List Json.Token} :
    content ∈ strings tokens ↔ .string content ∈ tokens := by
  rw [strings, List.mem_filterMap]
  constructor
  · intro ⟨token, member, same⟩
    cases token with
    | mark byte => cases same
    | literal word => cases same
    | string other =>
        cases same
        exact member
  · intro member
    exact ⟨_, member, rfl⟩

/-- The tokens of an instruction: its braces, and between them strings that
are names, integers and punctuation. -/
theorem InsnElement.tokens (object : InsnElement element insn) :
    ∃ inside, element = Json.Token.mark 123 ::
        (inside ++ [Json.Token.mark 125]) ∧
      ∀ token ∈ inside,
        token = .mark 44 ∨ token = .mark 58 ∨
        (∃ content, token = .string content ∧
          ∀ byte ∈ Json.decode content, nameByte byte = true) ∨
        ∃ word value, token = .literal word ∧ Json.Integer word value := by
  cases object with
  | @mk members opcodeKey name aKey bKey cKey a b c _ order namedOpcode known
      namedA integerA namedB integerB namedC integerC =>
      refine ⟨_, rfl, ?_⟩
      intro token member
      rcases Json.mem_members member with comma | colon | ⟨other, inside, part⟩
      · exact .inl comma
      · exact .inr (.inl colon)
      · right
        right
        rw [order.mem_iff] at inside
        simp only [List.mem_cons, List.not_mem_nil, or_false] at inside
        rcases inside with rfl | rfl | rfl | rfl
        · left
          rcases part with rfl | value
          · exact ⟨_, rfl, nameBytes_of_eq namedOpcode (by decide)⟩
          · rw [List.mem_singleton.mp value]
            exact ⟨_, rfl, nameBytes_of_known known⟩
        · rcases part with rfl | value
          · exact .inl ⟨_, rfl, nameBytes_of_eq namedA (by decide)⟩
          · rw [List.mem_singleton.mp value]
            exact .inr ⟨a, _, rfl, integerA⟩
        · rcases part with rfl | value
          · exact .inl ⟨_, rfl, nameBytes_of_eq namedB (by decide)⟩
          · rw [List.mem_singleton.mp value]
            exact .inr ⟨b, _, rfl, integerB⟩
        · rcases part with rfl | value
          · exact .inl ⟨_, rfl, nameBytes_of_eq namedC (by decide)⟩
          · rw [List.mem_singleton.mp value]
            exact .inr ⟨c, _, rfl, integerC⟩

theorem InsnElement.numeric (object : InsnElement element insn) :
    ∀ token ∈ element, Numeric token := by
  obtain ⟨inside, rfl, parts⟩ := object.tokens
  intro token member
  rw [List.mem_cons, List.mem_append, List.mem_singleton] at member
  rcases member with rfl | inner | rfl
  · rfl
  · rcases parts token inner with rfl | rfl | ⟨content, rfl, _⟩ |
      ⟨word, value, rfl, integer⟩
    · rfl
    · rfl
    · trivial
    · exact ⟨value, integer⟩
  · rfl

/-- Between the braces there are no brackets. -/
theorem InsnElement.clear (object : InsnElement element insn) :
    ∃ inside, element = Json.Token.mark 123 ::
        (inside ++ [Json.Token.mark 125]) ∧
      ∀ token ∈ inside.map ofJson, ∀ byte,
        byte = 91 ∨ byte = 93 ∨ byte = 123 ∨ byte = 125 →
        byte ∉ token.text := by
  obtain ⟨inside, same, parts⟩ := object.tokens
  refine ⟨inside, same, ?_⟩
  intro token member byte bracket
  obtain ⟨original, inner, rfl⟩ := List.mem_map.mp member
  rcases parts original inner with rfl | rfl | ⟨content, rfl, bytes⟩ |
    ⟨word, value, rfl, integer⟩
  · rcases bracket with rfl | rfl | rfl | rfl <;> decide
  · rcases bracket with rfl | rfl | rfl | rfl <;> decide
  · intro inText
    have outside := not_mem_raw bytes (.inr bracket)
    simp only [ofJson, Token.text, text_quote, List.mem_append,
      List.mem_singleton, outside, false_or, or_self] at inText
    rw [inText] at bracket
    simp at bracket
  · intro inText
    obtain ⟨negative, digits, rfl, _, decimal, _⟩ :=
      integer_signedDigits integer
    have number := signedDigits_numberByte decimal byte inText
    rcases bracket with rfl | rfl | rfl | rfl
    · cases number
    · cases number
    · cases number
    · cases number

/-- The members of an instruction object: keys that are names, all different,
with a string or an integer each. -/
structure InsnMembers (members : List Json.Member) (insn : Insn)
    (name : List Json.Part) : Prop where
  numeric : ∀ token ∈ Json.objectTokens members, Numeric token
  flat : ∀ member ∈ members, Flat member
  names : ∀ member ∈ members, ∀ byte ∈ Json.decode member.1,
    nameByte byte = true
  distinct : (members.map fun member => Json.decode member.1).Nodup
  known : opcodeFromString (Json.decode name) = some insn.opcode
  opcode : ∃ key, (key, [.string name]) ∈ members ∧
    Json.decode key = text "opcode"
  a : HasInteger members (text "a") insn.a
  b : HasInteger members (text "b") insn.b
  c : HasInteger members (text "c") insn.c

/-- Members with the same key are the same. -/
theorem eq_of_distinct {members : List Json.Member}
    {one other : List Json.Part} {value token : List Json.Token}
    (distinct : (members.map fun member => Json.decode member.1).Nodup)
    (first : (one, value) ∈ members) (second : (other, token) ∈ members)
    (same : Json.decode one = Json.decode other) :
    one = other ∧ value = token := by
  have equal := List.inj_on_of_nodup_map distinct first second same
  exact Prod.mk.inj equal

theorem InsnElement.members (object : InsnElement element insn) :
    ∃ members name, element = Json.objectTokens members ∧
      InsnMembers members insn name ∧
      ∀ content ∈ strings element, content = name ∨
        ∃ member ∈ members, content = member.1 ∧
          (Json.decode content = text "opcode" ∨
            Json.decode content = text "a" ∨ Json.decode content = text "b" ∨
              Json.decode content = text "c") := by
  have numeric := object.numeric
  cases object with
  | @mk members opcodeKey name aKey bKey cKey a b c _ order namedOpcode known
      namedA integerA namedB integerB namedC integerC =>
      have of_member : ∀ {property : Json.Member → Prop},
          property (opcodeKey, [.string name]) →
          property (aKey, [.literal a]) → property (bKey, [.literal b]) →
          property (cKey, [.literal c]) →
          ∀ member ∈ members, property member := by
        intro property first second third fourth member inside
        rw [order.mem_iff] at inside
        simp only [List.mem_cons, List.not_mem_nil, or_false] at inside
        rcases inside with rfl | rfl | rfl | rfl
        · exact first
        · exact second
        · exact third
        · exact fourth
      have distinct :
          (members.map fun member => Json.decode member.1).Nodup := by
        rw [(order.map _).nodup_iff]
        simp only [List.map_cons, List.map_nil, namedOpcode, namedA, namedB,
          namedC]
        decide
      refine ⟨members, name, rfl, ⟨numeric, ?_, ?_, distinct, known,
        ⟨opcodeKey, ?_, namedOpcode⟩, ⟨aKey, a, ?_, namedA, integerA⟩,
        ⟨bKey, b, ?_, namedB, integerB⟩, ⟨cKey, c, ?_, namedC, integerC⟩⟩, ?_⟩
      · apply of_member
        · exact ⟨_, rfl, by simp⟩
        · exact ⟨_, rfl, by simp⟩
        · exact ⟨_, rfl, by simp⟩
        · exact ⟨_, rfl, by simp⟩
      · apply of_member
        · exact nameBytes_of_eq namedOpcode (by decide)
        · exact nameBytes_of_eq namedA (by decide)
        · exact nameBytes_of_eq namedB (by decide)
        · exact nameBytes_of_eq namedC (by decide)
      · simp [order.mem_iff]
      · simp [order.mem_iff]
      · simp [order.mem_iff]
      · simp [order.mem_iff]
      · intro content isString
        rw [mem_strings, Json.objectTokens, List.mem_cons, List.mem_append,
          List.mem_singleton] at isString
        have inside : .string content ∈
            Json.separated (members.map Json.memberTokens) := by
          rcases isString with mark | inside | mark
          · cases mark
          · exact inside
          · cases mark
        rcases Json.mem_members inside with comma | colon |
          ⟨other, isMember, part⟩
        · cases comma
        · cases colon
        · have fields : ∀ member ∈ members,
              .string content = Json.Token.string member.1 ∨
                .string content ∈ member.2 →
              content = name ∨ content = member.1 ∧
                (Json.decode content = text "opcode" ∨
                  Json.decode content = text "a" ∨
                  Json.decode content = text "b" ∨
                  Json.decode content = text "c") := by
            apply of_member
            · intro isPart
              rcases isPart with same | value
              · cases same
                exact .inr ⟨rfl, .inl namedOpcode⟩
              · cases List.mem_singleton.mp value
                exact .inl rfl
            · simp +contextual [namedA]
            · simp +contextual [namedB]
            · simp +contextual [namedC]
          exact (fields other isMember part).imp_right
            fun key => ⟨other, isMember, key⟩

/-! ## Reading instructions -/

variable {members : List Json.Member} {value : Text} {word : Int64}

theorem InsnMembers.fieldOf {token : Json.Token} {after : List Json.Token}
    (shape : InsnMembers members insn name)
    (field : FieldIn key token after (Json.objectTokens members)) :
    FieldOf key token after members := by
  rw [← List.append_nil (Json.objectTokens members)] at field
  rcases fieldIn_object shape.flat field with found | nothing
  · exact found
  · cases nothing

/-- The key of a member that is found. -/
theorem InsnMembers.named {tokens : List Json.Token} (isKey : Key value)
    (shape : InsnMembers members insn name) (member : (key, tokens) ∈ members)
    (ends : Ends value (Json.raw key)) :
    Json.decode key = value ∧ Json.Plain key :=
  (ends_iff isKey (shape.names _ member)).mp ends

/-- The name of the opcode is read if its key has no escapes, up to the first
quote. -/
theorem InsnMembers.stringField_iff (shape : InsnMembers members insn name)
    (spaced : Spaced ((Json.objectTokens members).map ofJson) obj) :
    StringField obj (text "opcode") value ↔
      (∃ key, (key, [.string name]) ∈ members ∧
        Json.decode key = text "opcode" ∧ Json.Plain key) ∧
      value = (Json.raw name).takeWhile fun byte => byte != 34 := by
  obtain ⟨opcodeKey, opcode, opcodeNamed⟩ := shape.opcode
  -- A field with the key of the opcode is its member.
  have only : ∀ {key content behind},
      FieldIn key (.string content) behind (Json.objectTokens members) →
      Ends (text "opcode") (Json.raw key) →
      (key, [.string content]) ∈ members ∧
        Json.decode key = text "opcode" ∧ Json.Plain key ∧ content = name := by
    intro key content behind field ends
    obtain ⟨member, _⟩ := shape.fieldOf field
    obtain ⟨same, plain⟩ := shape.named key_opcode member ends
    obtain ⟨_, values⟩ := eq_of_distinct shape.distinct member opcode
      (same.trans opcodeNamed.symm)
    cases values
    exact ⟨member, same, plain, rfl⟩
  rw [stringField_iff_fieldIn key_opcode shape.numeric (by
    intro _ _ _ _ _ _ field ends otherField otherEnds
    obtain ⟨_, _, _, rfl⟩ := only field ends
    exact (only otherField otherEnds).2.2.2.symm) spaced]
  constructor
  · intro read
    obtain ⟨key, content, behind, field, ends, same⟩ := read
    obtain ⟨member, named, plain, rfl⟩ := only field ends
    exact ⟨⟨key, member, named, plain⟩, same⟩
  · intro read
    obtain ⟨⟨key, member, named, plain⟩, same⟩ := read
    obtain ⟨byte, others, _, field⟩ := exists_fieldIn_object [] member
    rw [List.append_nil] at field
    exact ⟨key, name, _, field, (ends_iff key_opcode
      (shape.names _ member)).mpr ⟨named, plain⟩, same⟩

/-- An operand is read if its key has no escapes. -/
theorem InsnMembers.intField_iff (isKey : Key value)
    (shape : InsnMembers members insn name)
    (operand : HasInteger members value word)
    (spaced : Spaced ((Json.objectTokens members).map ofJson) obj)
    {read : Int64} :
    IntField obj value read ↔
      (∃ key tokens, (key, tokens) ∈ members ∧
        Json.decode key = value ∧ Json.Plain key) ∧ read = word := by
  obtain ⟨operandKey, literal, operandMember, spells, integer⟩ := operand
  -- Wherever the key stands with an integer, it is this member.
  have found : ∀ {front here negative digits}, obj = front ++ here →
      IntAt value here negative digits →
      (∃ key tokens, (key, tokens) ∈ members ∧
        Json.decode key = value ∧ Json.Plain key) ∧
      word.toInt = if negative then -(Decimal.value digits : Int)
        else Decimal.value digits := by
    intro front here negative digits whole stands
    rw [whole] at spaced
    obtain ⟨key, spelled, after, field, ends, digitsRead⟩ :=
      stands.fieldIn isKey shape.numeric spaced
    obtain ⟨member, byte, others, behind, _⟩ := shape.fieldOf field
    obtain ⟨equal, plain⟩ := shape.named isKey member ends
    obtain ⟨_, values⟩ := eq_of_distinct shape.distinct member operandMember
      (equal.trans spells.symm)
    cases values
    refine ⟨⟨key, _, member, equal, plain⟩, ?_⟩
    obtain ⟨sign, run, shown, nonempty, decimal, signed⟩ :=
      integer_signedDigits integer
    obtain ⟨_, _, _, _, _, filled, inside, _⟩ := stands
    have text : signedDigits sign run ++ [] =
        signedDigits negative digits ++ [] := by
      rw [← digitsRead byte others behind, shown]
    obtain ⟨rfl, rfl⟩ := signedDigits_injective nonempty filled decimal inside
      (by simp) (by simp) text
    exact signed
  constructor
  · intro ⟨front, here, negative, digits, whole, _, stands, same⟩
    obtain ⟨plain, signed⟩ := found whole stands
    exact ⟨plain, Int64.toInt_inj.mp (same.trans signed.symm)⟩
  · intro ⟨⟨key, tokens, member, same, plain⟩, equal⟩
    obtain ⟨rfl, rfl⟩ := eq_of_distinct shape.distinct member operandMember
      (same.trans spells.symm)
    obtain ⟨byte, others, mark, field⟩ := exists_fieldIn_object [] member
    rw [List.append_nil] at field
    have ends := (ends_iff isKey (shape.names _ member)).mpr ⟨same, plain⟩
    obtain ⟨front, here, whole, first⟩ :=
      field.exists_intAt mark integer ends spaced
    obtain ⟨negative, digits, stands⟩ := first.found
    obtain ⟨_, signed⟩ := found whole stands
    rw [equal]
    exact ⟨front, here, negative, digits, whole, first, stands, signed⟩

/-- An instruction object is read if its strings have no escapes. -/
theorem InsnElement.reads (object : InsnElement element insn)
    (plain : ∀ content ∈ strings element, Json.Plain content)
    (spaced : Spaced (element.map ofJson) obj) :
    ∃ spelled, StringField obj (text "opcode") spelled ∧
      opcodeFromString spelled = some insn.opcode ∧
      IntField obj (text "a") insn.a ∧ IntField obj (text "b") insn.b ∧
      IntField obj (text "c") insn.c := by
  obtain ⟨members, name, rfl, shape, _⟩ := object.members
  have plainMember : ∀ {key tokens}, (key, tokens) ∈ members →
      Json.Plain key ∧ ∀ content, .string content ∈ tokens →
        Json.Plain content := by
    intro key tokens member
    obtain ⟨inside, others⟩ := Json.mem_objectTokens member
    exact ⟨plain key (mem_strings.mpr inside), fun content value =>
      plain content (mem_strings.mpr (others _ value))⟩
  have operand : ∀ {key word}, Key key → HasInteger members key word →
      IntField obj key word := by
    intro key word isKey ⟨spelled, literal, member, named, integer⟩
    apply (shape.intField_iff isKey ⟨_, _, member, named, integer⟩ spaced).mpr
    exact ⟨⟨spelled, _, member, named, (plainMember member).1⟩, rfl⟩
  obtain ⟨key, member, named⟩ := shape.opcode
  obtain ⟨plainKey, others⟩ := plainMember member
  have plainName := others name List.mem_cons_self
  refine ⟨_, (shape.stringField_iff spaced).mpr
    ⟨⟨key, member, named, plainKey⟩, rfl⟩, ?_, operand key_a shape.a,
    operand key_b shape.b, operand key_c shape.c⟩
  rw [Json.takeWhile_eq_decode_iff.mpr plainName]
  exact shape.known

/-- Only an instruction object without escapes is read as an instruction. -/
theorem InsnElement.plain_of_reads {read : Insn} {spelled : Text}
    (object : InsnElement element insn)
    (spaced : Spaced (element.map ofJson) obj)
    (opcode : StringField obj (text "opcode") spelled)
    (known : opcodeFromString spelled = some read.opcode)
    (a : IntField obj (text "a") read.a) (b : IntField obj (text "b") read.b)
    (c : IntField obj (text "c") read.c) :
    ∀ content ∈ strings element, Json.Plain content := by
  obtain ⟨members, name, rfl, shape, all⟩ := object.members
  obtain ⟨⟨opcodeKey, opcodeMember, opcodeNamed, opcodePlain⟩, rfl⟩ :=
    (shape.stringField_iff spaced).mp opcode
  obtain ⟨plainA, _⟩ := (shape.intField_iff key_a shape.a spaced).mp a
  obtain ⟨plainB, _⟩ := (shape.intField_iff key_b shape.b spaced).mp b
  obtain ⟨plainC, _⟩ := (shape.intField_iff key_c shape.c spaced).mp c
  intro content isString
  rcases all content isString with rfl | ⟨member, isMember, rfl, keys⟩
  · exact plain_of_known known
  · have plainKey : ∀ {word}, Json.decode member.1 = word →
        (∃ key tokens, (key, tokens) ∈ members ∧ Json.decode key = word ∧
          Json.Plain key) → Json.Plain member.1 := by
      intro word same ⟨key, tokens, inside, named, plain⟩
      obtain ⟨equal, _⟩ := eq_of_distinct shape.distinct isMember inside
        (same.trans named.symm)
      rwa [equal]
    rcases keys with same | same | same | same
    · exact plainKey same ⟨_, _, opcodeMember, opcodeNamed, opcodePlain⟩
    · exact plainKey same plainA
    · exact plainKey same plainB
    · exact plainKey same plainC

end Elements

/-! ## The array -/

section Array

variable {element lead after : List Json.Token} {insn : Insn}
  {elements : List (List Json.Token)} {insns read : List Insn}
  {input body : Text}

/-- The text of an instruction object in the array. -/
theorem InsnElement.stretch (object : InsnElement element insn)
    (clear : ∀ token ∈ lead.map ofJson, 123 ∉ token.text)
    (spaced : Spaced ((lead ++ (element ++ after)).map ofJson) input) :
    ∃ gap obj rest, input = gap ++ (obj ++ rest) ∧ 123 ∉ gap ∧
      Closes 123 125 obj ∧ Spaced (element.map ofJson) obj ∧
      Spaced (after.map ofJson) rest := by
  obtain ⟨inside, rfl, free⟩ := object.clear
  have opened : Spaced (lead.map ofJson ++ .plain [123] ::
      (inside.map ofJson ++ .plain [125] :: after.map ofJson)) input := by
    simpa [ofJson] using spaced
  obtain ⟨gap, right, rfl, gapFree, _, spacedRight⟩ :=
    opened.splitAt rfl clear
  obtain ⟨middle, rest, rfl, noClosing, spacedMiddle, spacedRest⟩ :=
    spacedRight.splitAt rfl fun token member =>
      free token member 125 (by decide)
  have noOpening : 123 ∉ middle := spacedMiddle.free rfl
    fun token member => free token member 123 (by decide)
  have empty : Blank [] := by simp [Blank]
  have closing : Spaced [.plain [125]] [125] := .next empty (.done empty)
  have whole : Spaced ((Json.Token.mark 123 :: (inside
      ++ [Json.Token.mark 125])).map ofJson) (123 :: (middle ++ [125])) := by
    rw [List.map_cons, List.map_append]
    exact .next empty (spacedMiddle.append closing)
  refine ⟨gap, 123 :: (middle ++ [125]), rest, by simp, gapFree, ?_, whole,
    spacedRest⟩
  exact closes_pair (by decide) noOpening noClosing

/-- The array without escapes is read as its instructions. -/
theorem objects_trailing (each : List.Forall₂ InsnElement elements insns)
    (plain : ∀ element ∈ elements, ∀ content ∈ strings element,
      Json.Plain content)
    (spaced : Spaced ((elements.flatMap
      fun item => Json.Token.mark 44 :: item).map ofJson) input) :
    Objects input insns := by
  induction each generalizing input with
  | nil => exact .done (spaced.free rfl (by simp))
  | @cons element insn elements insns object _ induction =>
      obtain ⟨here, others⟩ := List.forall_mem_cons.mp plain
      rw [List.flatMap_cons, List.cons_append] at spaced
      obtain ⟨gap, obj, rest, rfl, free, closes, spacedObject, spacedRest⟩ :=
        @InsnElement.stretch _ [.mark 44] _ _ _ object (by decide) spaced
      obtain ⟨name, spelled, known, a, b, c⟩ := object.reads here spacedObject
      exact .next free closes spelled known a b c
        (induction others spacedRest)

/-- Only an array without escapes is read as instructions. -/
theorem plain_of_trailing (each : List.Forall₂ InsnElement elements insns)
    (spaced : Spaced ((elements.flatMap
      fun item => Json.Token.mark 44 :: item).map ofJson) input)
    (objects : Objects input read) :
    ∀ element ∈ elements, ∀ content ∈ strings element,
      Json.Plain content := by
  induction each generalizing input read with
  | nil => simp
  | @cons element insn elements insns object _ induction =>
      rw [List.flatMap_cons, List.cons_append] at spaced
      obtain ⟨gap, obj, rest, whole, free, closes, spacedObject,
        spacedRest⟩ :=
        @InsnElement.stretch _ [.mark 44] _ _ _ object (by decide) spaced
      obtain ⟨inside, rfl⟩ := closes.exists_body (by decide)
      cases objects with
      | done none =>
          refine absurd ?_ none
          rw [whole]
          simp
      | @next otherGap otherObj otherRest name found insns otherFree
          otherCloses spelled known a b c later =>
          obtain ⟨otherInside, rfl⟩ := otherCloses.exists_body (by decide)
          obtain ⟨rfl, same⟩ := eq_of_marked otherFree free whole
          obtain ⟨sameObject, rfl⟩ := otherCloses.unique (by decide) closes
            (congrArg (123 :: ·) same)
          rw [sameObject] at spelled a b c
          rw [List.forall_mem_cons]
          constructor
          · exact object.plain_of_reads spacedObject spelled known a b c
          · exact induction spacedRest later

/-- A comma changes nothing for the instructions behind it. -/
theorem objects_comma : Objects (44 :: body) read ↔ Objects body read := by
  constructor
  · intro objects
    generalize whole : 44 :: body = input at objects
    cases objects with
    | done free =>
        apply Objects.done
        rw [← whole] at free
        exact List.not_mem_of_not_mem_cons free
    | @next gap obj rest name insn insns free closes spelled known a b c
        later =>
        cases gap with
        | nil =>
            obtain ⟨inside, rfl⟩ := closes.exists_body (by decide)
            cases whole
        | cons first gap =>
            obtain ⟨_, rfl⟩ := List.cons_eq_cons.mp whole
            exact .next (List.not_mem_of_not_mem_cons free) closes spelled
              known a b c later
  · intro objects
    cases objects with
    | done free => exact .done (by simpa using free)
    | @next gap obj rest name insn insns free closes spelled known a b c
        later =>
        exact @Objects.next (44 :: gap) obj rest name insn insns
          (by simpa using free) closes spelled known a b c later

/-- The elements with a comma before each of them. -/
theorem spaced_trailing (nonempty : elements ≠ [])
    (spaced : Spaced ((Json.separated elements).map ofJson) body) :
    Spaced ((elements.flatMap
      fun item => Json.Token.mark 44 :: item).map ofJson) (44 :: body) := by
  obtain ⟨first, others, rfl⟩ := List.exists_cons_of_ne_nil nonempty
  rw [Json.separated_cons] at spaced
  rw [List.flatMap_cons, List.cons_append, List.map_cons]
  exact @Spaced.next [] _ _ _ (by simp [Blank]) spaced

theorem objects_separated (each : List.Forall₂ InsnElement elements insns)
    (nonempty : elements ≠ [])
    (plain : ∀ element ∈ elements, ∀ content ∈ strings element,
      Json.Plain content)
    (spaced : Spaced ((Json.separated elements).map ofJson) body) :
    Objects body insns := by
  have objects :=
    objects_trailing each plain (spaced_trailing nonempty spaced)
  rw [objects_comma] at objects
  exact objects

theorem plain_of_separated (each : List.Forall₂ InsnElement elements insns)
    (nonempty : elements ≠ [])
    (spaced : Spaced ((Json.separated elements).map ofJson) body)
    (objects : Objects body read) :
    ∀ element ∈ elements, ∀ content ∈ strings element,
      Json.Plain content := by
  rw [← objects_comma] at objects
  exact plain_of_trailing each (spaced_trailing nonempty spaced) objects

theorem exists_insnElement (each : List.Forall₂ InsnElement elements insns)
    (member : element ∈ elements) : ∃ insn, InsnElement element insn := by
  induction each with
  | nil => cases member
  | cons object _ induction =>
      rcases List.mem_cons.mp member with rfl | later
      · exact ⟨_, object⟩
      · exact induction later

/-- The array has no brackets inside. -/
theorem separated_clear (each : List.Forall₂ InsnElement elements insns) :
    ∀ token ∈ (Json.separated elements).map ofJson,
      91 ∉ token.text ∧ 93 ∉ token.text := by
  intro token member
  obtain ⟨original, inside, rfl⟩ := List.mem_map.mp member
  rcases Json.mem_separated inside with rfl | ⟨element, isElement, inElement⟩
  · decide
  · obtain ⟨insn, object⟩ := exists_insnElement each isElement
    obtain ⟨middle, rfl, free⟩ := object.clear
    rw [List.mem_cons, List.mem_append, List.mem_singleton] at inElement
    rcases inElement with rfl | inMiddle | rfl
    · decide
    · have clear := free _ (List.mem_map_of_mem inMiddle)
      exact ⟨clear 91 (by decide), clear 93 (by decide)⟩
    · decide

theorem StringAt.append {word here value : Text}
    (stands : StringAt word here value) (rest : Text) :
    StringAt word (here ++ rest) value := by
  obtain ⟨left, right, later, leftBlank, rightBlank, free, rfl⟩ := stands
  exact ⟨left, right, later ++ rest, leftBlank, rightBlank, free,
    by simp [fieldText]⟩

/-- Where instructions are read there is the name of an opcode. -/
theorem Objects.exists_opcode (objects : Objects body read)
    (nonempty : read ≠ []) :
    ∃ front here value, body = front ++ here ∧
      StringAt (text "opcode") here value := by
  cases objects with
  | done free => exact absurd rfl nonempty
  | @next gap obj rest name insn insns free closes spelled known a b c later =>
      obtain ⟨front, here, rfl, _, stands⟩ := spelled
      exact ⟨gap ++ front, here ++ rest, name, by simp, stands.append rest⟩

end Array

end T81VM.ProgramIo
