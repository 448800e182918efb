import T81VM.ProgramIo.DocumentLoading

/-!
# Conforming documents

The policy that is read of a document, and which documents load as the program
they hold.
-/

namespace T81VM.ProgramIo

open Tisc Scan

section Documents

variable {program : Program} {members before after : List Json.Member}
  {key content : List Json.Part} {elements : List (List Json.Token)}
  {input : Text}

/-! ## The policy -/

theorem key_policy : Key (text "axion_policy_text") := by decide

theorem fieldIn_append {value : Json.Token} {behind left right : List Json.Token}
    (field : FieldIn key value behind (left ++ right)) :
    .string key ∈ left ∨ FieldIn key value behind right := by
  induction left with
  | nil => exact .inr field
  | cons token left induction =>
      rw [List.cons_append] at field
      generalize left ++ right = others at field induction
      cases field with
      | here => exact .inl List.mem_cons_self
      | later field =>
          exact (induction field).imp_left (List.mem_cons_of_mem _)

theorem mem_around {member array : Json.Member}
    (inside : member ∈ before ++ after) : member ∈ before ++ array :: after :=
  ((List.sublist_cons_self array after).append_left before).subset inside

/-- The fields with the name of the policy are members around the array. -/
theorem Divided.policy_member {name : List Json.Part}
    {behind : List Json.Token}
    (divided : Divided program before after key elements)
    (ends : Ends (text "axion_policy_text") (Json.raw name))
    (field : FieldIn name (.string content) behind (headTokens before key
      ++ (Json.arrayTokens elements ++ tailTokens after))) :
    (name, [.string content]) ∈ before ++ after := by
  rw [headTokens, List.cons_append, fieldIn_mark, List.append_assoc] at field
  rcases fieldIn_leading (fun member inside =>
    divided.flat (List.mem_append_left _ inside)) field with
    ⟨isMember, _⟩ | field
  · exact List.mem_append_left _ isMember
  · rw [List.cons_append, List.cons_append, List.nil_append, fieldIn_string,
      fieldIn_mark] at field
    rcases field with ⟨_, array⟩ | field
    · -- The key of the array has no string.
      rw [Json.arrayTokens, List.cons_append] at array
      cases array
    · rcases fieldIn_append field with inArray | inTail
      · exact absurd ends (divided.not_ends key_policy (by decide)
          (by decide) inArray)
      · rcases fieldIn_trailing (fun member inside =>
          divided.flat (List.mem_append_right _ inside)) (by decide)
          (by decide) inTail with ⟨isMember, _⟩ | nothing
        · exact List.mem_append_right _ isMember
        · cases nothing

/-- The policy is read if its key has no escapes, up to the first quote. -/
theorem Divided.stringField_iff {value : Text}
    (divided : Divided program before after key elements)
    (spaced : Spaced ((headTokens before key
      ++ (Json.arrayTokens elements ++ tailTokens after)).map ofJson) input) :
    StringField input (text "axion_policy_text") value ↔
      ∃ name content, (name, [.string content]) ∈ before ++ after ∧
        Json.decode name = text "axion_policy_text" ∧ Json.Plain name ∧
        value = (Json.raw content).takeWhile fun byte => byte != 34 := by
  have only : ∀ {name content behind},
      FieldIn name (.string content) behind (headTokens before key
        ++ (Json.arrayTokens elements ++ tailTokens after)) →
      Ends (text "axion_policy_text") (Json.raw name) →
      (name, [.string content]) ∈ before ++ after ∧
        Json.decode name = text "axion_policy_text" ∧ Json.Plain name := by
    intro name content behind field ends
    have isMember := divided.policy_member ends field
    exact ⟨isMember, (ends_iff key_policy (divided.name_bytes isMember)).mp ends⟩
  rw [stringField_iff_fieldIn key_policy divided.numeric (by
    intro _ _ _ _ _ _ field ends otherField otherEnds
    obtain ⟨isMember, same, _⟩ := only field ends
    obtain ⟨otherMember, otherSame, _⟩ := only otherField otherEnds
    obtain ⟨_, values⟩ := eq_of_distinct divided.distinct isMember otherMember
      (same.trans otherSame.symm)
    cases values
    rfl) spaced]
  constructor
  · intro read
    obtain ⟨name, content, behind, field, ends, same⟩ := read
    obtain ⟨isMember, named, plain⟩ := only field ends
    exact ⟨name, content, isMember, named, plain, same⟩
  · intro read
    obtain ⟨name, content, isMember, named, plain, same⟩ := read
    have inDocument : (name, [.string content]) ∈
        before ++ (key, Json.arrayTokens elements) :: after :=
      mem_around isMember
    obtain ⟨byte, others, _, field⟩ := exists_fieldIn_object [] inDocument
    rw [List.append_nil, objectTokens_divided] at field
    exact ⟨name, content, _, field, (ends_iff key_policy
      (divided.name_bytes isMember)).mpr ⟨named, plain⟩, same⟩

/-- The policy that is read is that of the program if it has no escapes, or
is empty behind a key with escapes. -/
theorem Divided.policy_iff
    (divided : Divided program before after key elements)
    (spaced : Spaced ((headTokens before key
      ++ (Json.arrayTokens elements ++ tailTokens after)).map ofJson) input) :
    (parseStringField input (text "axion_policy_text")).getD [] =
        program.axionPolicyText ↔
      ∀ member ∈ before ++ after,
        Json.decode member.1 = text "axion_policy_text" →
        ∀ content, member.2 = [.string content] →
          if Json.Plain member.1 then Json.Plain content
          else Json.decode content = [] := by
  have parsed : ∀ value,
      parseStringField input (text "axion_policy_text") = some value ↔ _ :=
    fun value => parseStringField_eq_some_iff.trans
      (divided.stringField_iff spaced)
  by_cases present : ∃ member ∈ before ++ after,
      Json.decode member.1 = text "axion_policy_text"
  case neg =>
    have absent : ∀ member ∈ before ++ after,
        Json.decode member.1 ≠ text "axion_policy_text" :=
      fun member inside same => present ⟨member, inside, same⟩
    have none : parseStringField input (text "axion_policy_text") = none := by
      rw [Option.eq_none_iff_forall_ne_some]
      intro value some
      obtain ⟨name, content, isMember, same, _⟩ := (parsed value).mp some
      exact absent _ isMember same
    constructor
    · intro _ member inside isPolicy
      exact absurd isPolicy (absent member inside)
    · intro _
      rw [none, divided.empty absent]
      rfl
  case pos =>
    obtain ⟨⟨name, value⟩, isMember, same⟩ := present
    obtain ⟨⟨content, single⟩, _⟩ := divided.fields _ isMember
    cases single
    -- There is no other member with this name.
    have only : (∀ member ∈ before ++ after,
        Json.decode member.1 = text "axion_policy_text" →
        ∀ content, member.2 = [.string content] →
          if Json.Plain member.1 then Json.Plain content
          else Json.decode content = []) ↔
        if Json.Plain name then Json.Plain content
          else Json.decode content = [] := by
      constructor
      · intro all
        exact all _ isMember same content rfl
      · intro this member inside isPolicy other otherValue
        obtain ⟨otherName, tokens⟩ := member
        obtain ⟨rfl, rfl⟩ := eq_of_distinct divided.distinct inside isMember
          (isPolicy.trans same.symm)
        cases otherValue
        exact this
    rw [only, ← divided.policy _ isMember same content rfl]
    by_cases plain : Json.Plain name
    · have some := (parsed _).mpr ⟨name, content, isMember, same, plain, rfl⟩
      rw [some, if_pos plain]
      exact Json.takeWhile_eq_decode_iff
    · have none : parseStringField input (text "axion_policy_text") = none := by
        rw [Option.eq_none_iff_forall_ne_some]
        intro value some
        obtain ⟨other, _, otherMember, otherSame, otherPlain, _⟩ :=
          (parsed value).mp some
        obtain ⟨rfl, _⟩ := eq_of_distinct divided.distinct isMember otherMember
          (same.trans otherSame.symm)
        exact plain otherPlain
      rw [none, if_neg plain]
      exact eq_comm

/-! ## Conforming documents -/

/-- The strings of the array are those of its elements. -/
theorem mem_strings_array :
    content ∈ strings (Json.arrayTokens elements) ↔
      ∃ element ∈ elements, content ∈ strings element := by
  rw [mem_strings]
  constructor
  · intro inside
    rw [Json.arrayTokens, List.mem_cons, List.mem_append,
      List.mem_singleton] at inside
    rcases inside with mark | inElements | mark
    · cases mark
    · rcases Json.mem_separated inElements with comma | ⟨item, isItem, inItem⟩
      · cases comma
      · exact ⟨item, isItem, mem_strings.mpr inItem⟩
    · cases mark
  · intro occurs
    obtain ⟨element, isElement, inElement⟩ := occurs
    apply List.mem_cons_of_mem
    apply List.mem_append_left
    exact Json.mem_separated_of_mem isElement (mem_strings.mp inElement)

/-- A property of the values of one name, away from the array and of it. -/
theorem Divided.forall_members {property : Json.Member → Prop}
    (around : ∀ member ∈ before ++ after, property member)
    (array : property (key, Json.arrayTokens elements)) :
    ∀ member ∈ before ++ (key, Json.arrayTokens elements) :: after,
      property member := by
  intro member inside
  rw [List.mem_append, List.mem_cons] at inside
  rcases inside with isBefore | rfl | isAfter
  · exact around member (List.mem_append_left _ isBefore)
  · exact array
  · exact around member (List.mem_append_right _ isAfter)

/-- A document loads as its program exactly if its array is found, the strings
of the array have no escapes, and neither has the policy. -/
theorem loadsAs_iff (document : Document program members)
    (spaced : Json.Spaced (Json.objectTokens members) input) :
    LoadsAs input program ↔ Readable members := by
  obtain ⟨before, key, elements, after, rfl, divided⟩ := document.divided
  rw [objectTokens_divided] at spaced
  have tokens := Spaced.ofJson spaced
  constructor
  · intro ⟨out, loads, accepted, same⟩
    obtain ⟨⟨body, array, objects, nonempty⟩, policy⟩ :=
      fragments_of_loadTiscJsonV1 loads accepted
    have found := divided.arrayFound tokens array objects nonempty
    obtain ⟨inner, otherArray, spacedBody⟩ := divided.arrayBody found tokens
    rw [← array.unique otherArray] at spacedBody
    have plain := plain_of_separated divided.each divided.nonempty spacedBody
      objects
    refine ⟨found, ?_, ?_⟩
    · apply Divided.forall_members
      · intro member inside named
        exact absurd named (divided.other_names inside)
      · intro _ content isString
        obtain ⟨element, isElement, inElement⟩ :=
          mem_strings_array.mp isString
        exact plain element isElement content inElement
    · rw [same] at policy
      apply Divided.forall_members
      · exact (divided.policy_iff tokens).mp policy.symm
      · intro _ content value
        rw [Json.arrayTokens] at value
        cases value
  · intro readable
    obtain ⟨body, array, spacedBody⟩ := divided.arrayBody readable.array tokens
    have plain : ∀ element ∈ elements, ∀ content ∈ strings element,
        Json.Plain content := by
      intro element isElement content inElement
      apply readable.plain (key, Json.arrayTokens elements)
      · exact List.mem_append_right _ List.mem_cons_self
      · exact divided.named
      · exact mem_strings_array.mpr ⟨element, isElement, inElement⟩
    have objects := objects_separated divided.each divided.nonempty plain
      spacedBody
    have filled : program.insns ≠ [] := by
      intro empty
      have same := divided.each.length_eq
      rw [empty] at same
      exact divided.nonempty (List.length_eq_zero_iff.mp same)
    obtain ⟨loaded, loads, insns, policy⟩ :=
      loadTiscJsonV1_of_fragments ⟨body, array, objects, filled⟩ program.fits
    have read := (divided.policy_iff tokens).mpr fun member inside =>
      readable.policy member (mem_around inside)
    exact ⟨_, loads, rfl, Program.eq_of_parts insns (policy.trans read)⟩

end Documents

/-- The characters of a text that needs no escapes. -/
def plainParts (word : String) : List Json.Part :=
  word.toList.filterMap fun char =>
    if allowed : 32 ≤ char.toNat ∧ char.toNat ≠ 34 ∧ char.toNat ≠ 92 then
      some (.plain char allowed)
    else none

/-- The members of the instruction `Halt`. -/
def haltMembers : List Json.Member :=
  [(plainParts "opcode", [.string (plainParts "Halt")]),
    (plainParts "a", [.literal (text "0")]),
    (plainParts "b", [.literal (text "0")]),
    (plainParts "c", [.literal (text "0")])]

/-- A document with this instruction and a policy behind the array. -/
def haltDocument (policy : List Json.Part) : List Json.Member :=
  [(plainParts "insns", Json.arrayTokens [Json.objectTokens haltMembers]),
    (plainParts "axion_policy_text", [.string policy])]

def haltProgram (policyText : Text) : Program where
  insns := [⟨.halt, 0, 0, 0⟩]
  axionPolicyText := policyText
  fits := by decide

theorem document_halt (policy : List Json.Part) :
    Document (haltProgram (Json.decode policy)) (haltDocument policy) := by
  have zero : Json.Integer (text "0") 0 := .positive .zero
  have element : InsnElement (Json.objectTokens haltMembers)
      ⟨.halt, 0, 0, 0⟩ :=
    .mk (List.Perm.refl _) (by decide) (by decide)
      (by decide) zero (by decide) zero (by decide) zero
  have named : Json.decode (plainParts "axion_policy_text") =
      text "axion_policy_text" := by decide
  exact @Document.mk _ _ [] [(plainParts "axion_policy_text",
    [.string policy])] (plainParts "insns") [Json.objectTokens haltMembers]
    none (some (Json.decode policy)) (List.Perm.swap _ _ []) .absent
    (.present named) rfl (by decide) (.cons element .nil)
    (List.cons_ne_nil _ _)

theorem loadsAs_halt :
    LoadsAs ((Json.objectTokens (haltDocument (plainParts "(tier 1)"))).flatMap
      Json.Token.text) (haltProgram (text "(tier 1)")) := by
  have policy : Json.decode (plainParts "(tier 1)") = text "(tier 1)" := by
    decide
  rw [← policy]
  apply (loadsAs_iff (document_halt _) (Json.Spaced.compact _)).mpr
  refine ⟨⟨[], plainParts "insns", [], ?_, .inl (by decide), by simp,
    by simp⟩, by decide, ?_⟩
  · rw [haltDocument, headStrings, if_pos (by decide)]
    rfl
  · intro member inside isPolicy content value
    rw [haltDocument, List.mem_cons, List.mem_singleton] at inside
    rcases inside with rfl | rfl
    · have differ : Json.decode (plainParts "insns") ≠
          text "axion_policy_text" := by decide
      exact absurd isPolicy differ
    · cases value
      rw [if_pos (by decide)]
      decide

/-- A policy with a quoted word before its security tier. -/
def quotedPolicy : List Json.Part :=
  plainParts "(policy " ++ .short .quote :: plainParts "p"
    ++ .short .quote :: plainParts " (tier 1))"

/-- The tier is lost: the policy that is read ends at its first quote. -/
theorem not_loadsAs_quotedPolicy :
    ∃ program members input, Document program members ∧
      Json.Spaced (Json.objectTokens members) input ∧
      ¬ LoadsAs input program := by
  refine ⟨_, haltDocument quotedPolicy, _, document_halt quotedPolicy,
    Json.Spaced.compact _, ?_⟩
  intro ⟨out, loads, _, same⟩
  have read : loadTiscJsonV1 ((Json.objectTokens
      (haltDocument quotedPolicy)).flatMap Json.Token.text) =
      .ok { ok := true, format := .tiscJsonV1, error := []
            program := haltProgram (text "(policy \\") } := by decide +kernel
  rw [read] at loads
  cases loads
  have texts := congrArg Program.axionPolicyText same
  revert texts
  decide

end T81VM.ProgramIo
