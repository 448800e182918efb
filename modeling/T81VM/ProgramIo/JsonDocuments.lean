import T81VM.ProgramIo.QuotedKeys

/-!
# JSON documents

The documents of TISC JSON V1 with their members in any order and strings with
any escapes, those the loader can read, and where the fields of an object
stand among its tokens.
-/

namespace T81VM.ProgramIo

open Tisc Scan

/-! ## Documents -/

/-- An object with the members of an instruction, in any order. -/
inductive InsnElement : List Json.Token → Insn → Prop where
  | mk {members : List Json.Member}
      {opcodeKey name aKey bKey cKey : List Json.Part} {a b c : Text}
      {insn : Insn}
      (order : members.Perm [(opcodeKey, [.string name]),
        (aKey, [.literal a]), (bKey, [.literal b]), (cKey, [.literal c])])
      (namedOpcode : Json.decode opcodeKey = text "opcode")
      (known : opcodeFromString (Json.decode name) = some insn.opcode)
      (namedA : Json.decode aKey = text "a")
      (integerA : Json.Integer a insn.a.toInt)
      (namedB : Json.decode bKey = text "b")
      (integerB : Json.Integer b insn.b.toInt)
      (namedC : Json.decode cKey = text "c")
      (integerC : Json.Integer c insn.c.toInt) :
      InsnElement (Json.objectTokens members) insn

/-- No member, or one with the name and a string, which denotes this text. -/
inductive OptionalString (name : Text) : Option Text → List Json.Member → Prop
    where
  | absent : OptionalString name none []
  | present {key content : List Json.Part} (named : Json.decode key = name) :
      OptionalString name (some (Json.decode content))
        [(key, [.string content])]

/-- The members of a document that holds the program, in any order. -/
inductive Document (program : Program) : List Json.Member → Prop where
  | mk {members formats policies : List Json.Member} {key : List Json.Part}
      {elements : List (List Json.Token)} {version policy : Option Text}
      (order : members.Perm
        (formats ++ policies ++ [(key, Json.arrayTokens elements)]))
      (format : OptionalString (text "format_version") version formats)
      (optional : OptionalString (text "axion_policy_text") policy policies)
      (same : program.axionPolicyText = policy.getD [])
      (named : Json.decode key = text "insns")
      (each : List.Forall₂ InsnElement elements program.insns)
      (nonempty : elements ≠ []) : Document program members

/-- The loader accepts the text as this program. -/
def LoadsAs (input : Text) (program : Program) : Prop :=
  ∃ out, loadTiscJsonV1 input = .ok out ∧ out.ok = true ∧
    out.program = program

/-- The strings among the tokens. -/
def strings (tokens : List Json.Token) : List (List Json.Part) :=
  tokens.filterMap fun
    | .string content => some content
    | .mark _ | .literal _ => none

/-- The strings of a document up to the key of the array. -/
def headStrings : List Json.Member → List (List Json.Part)
  | [] => []
  | (key, value) :: rest =>
      if Json.decode key = text "insns" then [key]
      else key :: (strings value ++ headStrings rest)

/-- Behind the first string that ends with `insns` comes the array: no string
between them has a bracket. -/
def ArrayFound (members : List Json.Member) : Prop :=
  ∃ before name after, headStrings members = before ++ name :: after ∧
    Ends (text "insns") (Json.raw name) ∧
    (∀ other ∈ before, ¬ Ends (text "insns") (Json.raw other)) ∧
    ∀ other ∈ after, 91 ∉ Json.raw other

/-- The documents the loader can read: the array is found, its strings have no
escapes, and neither has the policy.  With an escape in its key the policy is
not seen, which is right if it is empty. -/
structure Readable (members : List Json.Member) : Prop where
  array : ArrayFound members
  plain : ∀ member ∈ members, Json.decode member.1 = text "insns" →
    ∀ content ∈ strings member.2, Json.Plain content
  policy : ∀ member ∈ members,
    Json.decode member.1 = text "axion_policy_text" →
    ∀ content, member.2 = [.string content] →
      if Json.Plain member.1 then Json.Plain content
      else Json.decode content = []

/-! ## Strings -/

variable {name content key : List Json.Part} {word : Text} {byte : UInt8}

/-- A name in a string has neither quotes nor brackets. -/
theorem not_mem_raw (bytes : ∀ byte ∈ Json.decode name, nameByte byte = true)
    (special : byte = 34 ∨ byte = 91 ∨ byte = 93 ∨ byte = 123 ∨ byte = 125) :
    byte ∉ Json.raw name := by
  intro member
  have inside : byte ∈ Json.decode name := by
    apply Json.mem_decode member
    · rcases special with rfl | rfl | rfl | rfl | rfl <;> decide
    · rcases special with rfl | rfl | rfl | rfl | rfl <;> decide
  have outside := nameByte_plain byte (bytes byte inside)
  rcases special with rfl | rfl | rfl | rfl | rfl
  · exact outside.1 rfl
  · exact outside.2.1 rfl
  · exact outside.2.2.1 rfl
  · exact outside.2.2.2.1 rfl
  · exact outside.2.2.2.2 rfl

/-- A name ends with a key only if it is the key, written plainly. -/
theorem ends_iff (isKey : Key word)
    (bytes : ∀ byte ∈ Json.decode name, nameByte byte = true) :
    Ends word (Json.raw name) ↔
      Json.decode name = word ∧ Json.Plain name := by
  constructor
  · intro ends
    rcases ends with same | ⟨front, same⟩
    · have plain : Json.Plain name := by
        by_contra escaped
        have backslash := Json.backslash_mem_raw.mpr escaped
        rw [same] at backslash
        have inside := isKey.2 92 backslash
        cases inside
      exact ⟨plain.decode.trans same, plain⟩
    · refine absurd ?_ (not_mem_raw bytes (.inl rfl))
      rw [same]
      simp
  · intro ⟨same, plain⟩
    left
    rw [← plain.decode, same]

theorem nameBytes_of_known {opcode : Opcode}
    (known : opcodeFromString (Json.decode name) = some opcode) :
    ∀ byte ∈ Json.decode name, nameByte byte = true :=
  (nameByte_of_opcodeFromString known).2

theorem nameBytes_of_eq (same : Json.decode name = word)
    (bytes : ∀ byte ∈ word, nameByte byte = true) :
    ∀ byte ∈ Json.decode name, nameByte byte = true :=
  same ▸ bytes

/-- What is read of an escaped name is no opcode. -/
theorem plain_of_known {opcode : Opcode}
    (known : opcodeFromString ((Json.raw name).takeWhile
      fun byte => byte != 34) = some opcode) : Json.Plain name := by
  by_contra escaped
  have backslash := Json.backslash_mem_takeWhile escaped
  have inside := (nameByte_of_opcodeFromString known).2 92 backslash
  cases inside

/-! ## Fields of objects -/

/-- The value of the member is one string or one literal. -/
def Flat (member : Json.Member) : Prop :=
  ∃ token, member.2 = [token] ∧ ∀ byte, token ≠ .mark byte

section Fields

variable {value token : Json.Token} {after tokens : List Json.Token}
  {member : Json.Member} {members : List Json.Member}

theorem fieldIn_mark : FieldIn name value after (.mark byte :: tokens) ↔
    FieldIn name value after tokens := by
  constructor
  · intro field
    cases field with
    | later field => exact field
  · exact .later

theorem fieldIn_literal :
    FieldIn name value after (.literal word :: tokens) ↔
      FieldIn name value after tokens := by
  constructor
  · intro field
    cases field with
    | later field => exact field
  · exact .later

theorem fieldIn_string :
    FieldIn name value after (.string content :: tokens) ↔
      (content = name ∧ tokens = .mark 58 :: value :: after) ∨
        FieldIn name value after tokens := by
  constructor
  · intro field
    cases field with
    | here => exact .inl ⟨rfl, rfl⟩
    | later field => exact .inr field
  · intro field
    rcases field with ⟨rfl, rfl⟩ | field
    · exact .here
    · exact .later field

/-- A flat member before punctuation is one field. -/
theorem fieldIn_member (single : member.2 = [token])
    (noMark : ∀ byte, token ≠ .mark byte) (noColon : byte ≠ 58) :
    FieldIn name value after
        (Json.memberTokens member ++ .mark byte :: tokens) ↔
      (member.1 = name ∧ token = value ∧ after = .mark byte :: tokens) ∨
        FieldIn name value after tokens := by
  have behind : FieldIn name value after (token :: .mark byte :: tokens) ↔
      FieldIn name value after tokens := by
    cases token with
    | mark other => exact absurd rfl (noMark other)
    | literal word => rw [fieldIn_literal, fieldIn_mark]
    | string content =>
        rw [fieldIn_string, fieldIn_mark]
        constructor
        · intro field
          rcases field with ⟨_, colon⟩ | field
          · cases colon
            exact absurd rfl noColon
          · exact field
        · exact .inr
  have shape : Json.memberTokens member ++ .mark byte :: tokens =
      .string member.1 :: .mark 58 :: token :: .mark byte :: tokens := by
    rw [Json.memberTokens, single]
    rfl
  rw [shape, fieldIn_string, fieldIn_mark, behind]
  constructor
  · intro field
    rcases field with ⟨same, equal⟩ | field
    · cases equal
      exact .inl ⟨same, rfl, rfl⟩
    · exact .inr field
  · intro field
    rcases field with ⟨same, rfl, rfl⟩ | field
    · exact .inl ⟨same, rfl⟩
    · exact .inr field

/-- A field of the members, before punctuation. -/
def FieldOf (name : List Json.Part) (value : Json.Token)
    (after : List Json.Token) (members : List Json.Member) : Prop :=
  (name, [value]) ∈ members ∧
    ∃ byte others, after = .mark byte :: others ∧ isMark byte = true

theorem FieldOf.cons (field : FieldOf name value after members) :
    FieldOf name value after (member :: members) :=
  ⟨List.mem_cons_of_mem _ field.1, field.2⟩

/-- Punctuation stands behind every member. -/
theorem exists_mark (members : List Json.Member) (mark : isMark byte = true)
    (noColon : byte ≠ 58) (tokens : List Json.Token) :
    ∃ next rest, isMark next = true ∧ next ≠ 58 ∧
      members.flatMap (fun member =>
        Json.Token.mark 44 :: Json.memberTokens member)
        ++ .mark byte :: tokens = .mark next :: rest := by
  cases members with
  | nil => exact ⟨byte, tokens, mark, noColon, rfl⟩
  | cons second members => exact ⟨44, _, by decide, by decide, rfl⟩

/-- The fields of members behind commas. -/
theorem fieldIn_trailing (flat : ∀ member ∈ members, Flat member)
    (mark : isMark byte = true) (noColon : byte ≠ 58)
    (field : FieldIn name value after (members.flatMap
      (fun member => Json.Token.mark 44 :: Json.memberTokens member)
        ++ .mark byte :: tokens)) :
    FieldOf name value after members ∨ FieldIn name value after tokens := by
  induction members with
  | nil => exact .inr (fieldIn_mark.mp field)
  | cons member members induction =>
      obtain ⟨⟨token, single, noMark⟩, others⟩ :=
        List.forall_mem_cons.mp flat
      obtain ⟨byte', rest, mark', noColon', shape⟩ :=
        exists_mark members mark noColon tokens
      rw [List.flatMap_cons, List.append_assoc, shape, List.cons_append,
        fieldIn_mark, fieldIn_member single noMark noColon'] at field
      rcases field with ⟨rfl, rfl, same⟩ | field
      · left
        refine ⟨?_, byte', rest, same, mark'⟩
        rw [← single]
        exact List.mem_cons_self
      · have later := induction others (by rw [shape]; exact .later field)
        exact later.imp_left FieldOf.cons

/-- The fields of members before commas. -/
theorem fieldIn_leading (flat : ∀ member ∈ members, Flat member)
    (field : FieldIn name value after (members.flatMap
      (fun member => Json.memberTokens member ++ [.mark 44]) ++ tokens)) :
    FieldOf name value after members ∨ FieldIn name value after tokens := by
  induction members with
  | nil => exact .inr field
  | cons member members induction =>
      obtain ⟨⟨token, single, noMark⟩, others⟩ :=
        List.forall_mem_cons.mp flat
      rw [List.flatMap_cons, List.append_assoc, List.append_assoc,
        List.cons_append, List.nil_append,
        fieldIn_member single noMark (by decide)] at field
      rcases field with ⟨rfl, rfl, same⟩ | field
      · left
        refine ⟨?_, 44, _, same, by decide⟩
        rw [← single]
        exact List.mem_cons_self
      · exact (induction others field).imp_left FieldOf.cons

/-- Commas do not matter for fields. -/
theorem fieldIn_separated {items : List (List Json.Token)} :
    FieldIn name value after (Json.separated items ++ tokens) ↔
      FieldIn name value after
        (items.flatMap (fun item => Json.Token.mark 44 :: item) ++ tokens) := by
  cases items with
  | nil => exact Iff.rfl
  | cons first others =>
      rw [Json.separated_cons, List.flatMap_cons, List.cons_append,
        List.cons_append, fieldIn_mark]

/-- The fields of an object with flat members. -/
theorem fieldIn_object (flat : ∀ member ∈ members, Flat member)
    (field : FieldIn name value after (Json.objectTokens members ++ tokens)) :
    FieldOf name value after members ∨ FieldIn name value after tokens := by
  rw [Json.objectTokens, List.cons_append, fieldIn_mark, List.append_assoc,
    fieldIn_separated, List.flatMap_map] at field
  exact fieldIn_trailing flat (by decide) (by decide) field

/-- Every member of an object with one token is a field. -/
theorem exists_fieldIn_object (tokens : List Json.Token)
    (member : (name, [value]) ∈ members) :
    ∃ byte others, isMark byte = true ∧ FieldIn name value
      (.mark byte :: others) (Json.objectTokens members ++ tokens) := by
  obtain ⟨before, later, rfl⟩ := List.append_of_mem member
  obtain ⟨byte, others, mark, _, shape⟩ :=
    @exists_mark 125 later (by decide) (by decide) tokens
  refine ⟨byte, others, mark, fieldIn_iff.mpr ⟨.mark 123
    :: (before.map Json.memberTokens).flatMap
      (fun item => item ++ [.mark 44]), ?_⟩⟩
  rw [Json.objectTokens, List.map_append, List.map_cons,
    Json.separated_append, ← shape, Json.memberTokens]
  simp [List.flatMap_map]

end Fields

end T81VM.ProgramIo
