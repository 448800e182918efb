import T81VM.ProgramIo.InsnArray

/-!
# Loading documents

A document divided at its array, and where the loader looks for the array: it
is found if no string before it ends with its key, or if none of the strings
behind the first such string has a bracket.
-/

namespace T81VM.ProgramIo

open Tisc Scan

/-! ## Documents -/

/-- The members around the array: the version and the policy, once at most,
with a string each. -/
structure Divided (program : Program) (before after : List Json.Member)
    (key : List Json.Part) (elements : List (List Json.Token)) : Prop where
  named : Json.decode key = text "insns"
  each : List.Forall₂ InsnElement elements program.insns
  nonempty : elements ≠ []
  fields : ∀ member ∈ before ++ after,
    (∃ content, member.2 = [.string content]) ∧
      (Json.decode member.1 = text "format_version" ∨
        Json.decode member.1 = text "axion_policy_text")
  few : (before ++ after).length ≤ 2
  distinct :
    ((before ++ after).map fun member => Json.decode member.1).Nodup
  policy : ∀ member ∈ before ++ after,
    Json.decode member.1 = text "axion_policy_text" →
      ∀ content, member.2 = [.string content] →
        Json.decode content = program.axionPolicyText
  empty : (∀ member ∈ before ++ after,
    Json.decode member.1 ≠ text "axion_policy_text") →
      program.axionPolicyText = []

/-- The tokens before the array. -/
def headTokens (before : List Json.Member) (key : List Json.Part) :
    List Json.Token :=
  .mark 123 :: (before.flatMap (fun member =>
    Json.memberTokens member ++ [.mark 44]) ++ [.string key, .mark 58])

/-- The tokens behind the array. -/
def tailTokens (after : List Json.Member) : List Json.Token :=
  after.flatMap (fun member => .mark 44 :: Json.memberTokens member)
    ++ [.mark 125]

section Documents

variable {program : Program} {members before after : List Json.Member}
  {key content : List Json.Part} {elements : List (List Json.Token)}
  {input body : Text}

theorem Document.divided (document : Document program members) :
    ∃ before key elements after,
      members = before ++ (key, Json.arrayTokens elements) :: after ∧
      Divided program before after key elements := by
  cases document with
  | @mk formats policies key elements version policy order format optional
      same named each nonempty =>
      have isMember : (key, Json.arrayTokens elements) ∈ members := by
        rw [order.mem_iff]
        simp
      obtain ⟨before, after, rfl⟩ := List.append_of_mem isMember
      have around : (before ++ after).Perm (formats ++ policies) := by
        apply List.Perm.cons_inv
        exact (List.perm_middle.symm.trans order).trans
          (List.perm_append_singleton _ _)
      have differ : text "format_version" ≠ text "axion_policy_text" := by
        decide
      refine ⟨before, key, elements, after, rfl, named, each, nonempty, ?_,
        ?_, ?_, ?_, ?_⟩
      · intro member inside
        rw [around.mem_iff, List.mem_append] at inside
        rcases inside with inside | inside
        · cases format with
          | absent => cases inside
          | present named =>
              rw [List.mem_singleton.mp inside]
              exact ⟨⟨_, rfl⟩, .inl named⟩
        · cases optional with
          | absent => cases inside
          | present named =>
              rw [List.mem_singleton.mp inside]
              exact ⟨⟨_, rfl⟩, .inr named⟩
      · rw [around.length_eq, List.length_append]
        cases format with
        | absent =>
            cases optional with
            | absent => decide
            | present named => exact Nat.le_succ _
        | present named =>
            cases optional with
            | absent => exact Nat.le_succ _
            | present named => exact Nat.le_refl _
      · rw [(around.map _).nodup_iff]
        cases format with
        | absent =>
            cases optional with
            | absent => exact List.nodup_nil
            | present named => exact List.nodup_singleton _
        | present namedFormat =>
            cases optional with
            | absent => exact List.nodup_singleton _
            | present namedPolicy =>
                simp [namedFormat, namedPolicy, differ]
      · intro member inside isPolicy content value
        rw [around.mem_iff, List.mem_append] at inside
        rcases inside with inside | inside
        · cases format with
          | absent => cases inside
          | present named =>
              rw [List.mem_singleton.mp inside] at isPolicy
              exact absurd (named.symm.trans isPolicy) differ
        · cases optional with
          | absent => cases inside
          | present named =>
              rw [List.mem_singleton.mp inside] at value
              cases value
              exact same.symm
      · intro none
        cases optional with
        | absent => exact same
        | @present policyKey content named =>
            refine absurd named (none (policyKey, [.string content]) ?_)
            rw [around.mem_iff]
            simp

theorem objectTokens_divided (value : List Json.Token) :
    Json.objectTokens (before ++ (key, value) :: after) =
      headTokens before key ++ (value ++ tailTokens after) := by
  rw [Json.objectTokens, List.map_append, List.map_cons,
    Json.separated_append, headTokens, tailTokens, Json.memberTokens]
  simp [List.flatMap_map]

/-- A string, or punctuation other than the brackets of arrays. -/
def Loose : Json.Token → Prop
  | .mark byte => byte = 44 ∨ byte = 58 ∨ byte = 123 ∨ byte = 125
  | .string _ => True
  | .literal _ => False

variable {token : Json.Token}

theorem Loose.numeric (loose : Loose token) : Numeric token := by
  cases token with
  | mark byte => rcases loose with rfl | rfl | rfl | rfl <;> rfl
  | string content => trivial
  | literal word => cases loose

/-- Only strings can have brackets of arrays. -/
theorem Loose.exists_string {byte : UInt8} (loose : Loose token)
    (bracket : byte = 91 ∨ byte = 93) (inside : byte ∈ (ofJson token).text) :
    ∃ content, token = .string content ∧ byte ∈ Json.raw content := by
  cases token with
  | mark other =>
      rw [ofJson, Token.text, List.mem_singleton] at inside
      rw [inside] at bracket
      rcases loose with rfl | rfl | rfl | rfl <;> simp at bracket
  | literal word => cases loose
  | string content =>
      refine ⟨content, rfl, ?_⟩
      rw [ofJson, Token.text, text_quote, List.mem_append, List.mem_append,
        List.mem_singleton] at inside
      rcases inside with rfl | inContent | rfl
      · simp at bracket
      · exact inContent
      · simp at bracket

theorem Divided.member_loose {member : Json.Member}
    (divided : Divided program before after key elements)
    (inside : member ∈ before ++ after) :
    ∀ token ∈ Json.memberTokens member, Loose token := by
  obtain ⟨⟨content, single⟩, _⟩ := divided.fields member inside
  intro token isToken
  simp only [Json.memberTokens, single, List.mem_cons, List.not_mem_nil,
    or_false] at isToken
  rcases isToken with rfl | rfl | rfl
  · trivial
  · exact .inr (.inl rfl)
  · trivial

theorem Divided.head_loose
    (divided : Divided program before after key elements) :
    ∀ token ∈ headTokens before key, Loose token := by
  intro token inside
  rw [headTokens, List.mem_cons, List.mem_append, List.mem_flatMap] at inside
  rcases inside with rfl | ⟨member, isMember, inMember⟩ | last
  · exact .inr (.inr (.inl rfl))
  · rw [List.mem_append, List.mem_singleton] at inMember
    rcases inMember with inTokens | rfl
    · exact divided.member_loose (List.mem_append_left _ isMember) token
        inTokens
    · exact .inl rfl
  · simp only [List.mem_cons, List.not_mem_nil, or_false] at last
    rcases last with rfl | rfl
    · trivial
    · exact .inr (.inl rfl)

theorem Divided.tail_loose
    (divided : Divided program before after key elements) :
    ∀ token ∈ tailTokens after, Loose token := by
  intro token inside
  rw [tailTokens, List.mem_append, List.mem_flatMap, List.mem_singleton]
    at inside
  rcases inside with ⟨member, isMember, inMember⟩ | rfl
  · rcases List.mem_cons.mp inMember with rfl | inTokens
    · exact .inl rfl
    · exact divided.member_loose (List.mem_append_right _ isMember) token
        inTokens
  · exact .inr (.inr (.inr rfl))

theorem Divided.numeric
    (divided : Divided program before after key elements) :
    ∀ token ∈ headTokens before key
      ++ (Json.arrayTokens elements ++ tailTokens after), Numeric token := by
  intro token inside
  rw [List.mem_append, List.mem_append] at inside
  rcases inside with inHead | inArray | inTail
  · exact (divided.head_loose token inHead).numeric
  · rw [Json.arrayTokens, List.mem_cons, List.mem_append,
      List.mem_singleton] at inArray
    rcases inArray with rfl | inElements | rfl
    · rfl
    · rcases Json.mem_separated inElements with rfl | ⟨item, isItem, inItem⟩
      · rfl
      · obtain ⟨insn, object⟩ := exists_insnElement divided.each isItem
        exact object.numeric token inItem
    · rfl
  · exact (divided.tail_loose token inTail).numeric

theorem strings_append (first second : List Json.Token) :
    strings (first ++ second) = strings first ++ strings second :=
  List.filterMap_append

theorem headStrings_append (value : List Json.Token)
    (named : Json.decode key = text "insns")
    (others : ∀ member ∈ before, Json.decode member.1 ≠ text "insns") :
    headStrings (before ++ (key, value) :: after) =
      strings (headTokens before key) := by
  have gathered : headStrings (before ++ (key, value) :: after) =
      strings (before.flatMap (fun member =>
        Json.memberTokens member ++ [.mark 44])) ++ [key] := by
    induction before with
    | nil =>
        rw [List.nil_append, headStrings, if_pos named]
        rfl
    | cons member before induction =>
        obtain ⟨here, behind⟩ := List.forall_mem_cons.mp others
        rw [List.cons_append, headStrings, if_neg here, induction behind,
          List.flatMap_cons, strings_append, strings_append,
          List.append_assoc]
        simp [strings, Json.memberTokens]
  have shape : strings (headTokens before key) =
      strings (before.flatMap (fun member =>
        Json.memberTokens member ++ [.mark 44]) ++ [.string key, .mark 58]) :=
    rfl
  rw [gathered, shape, strings_append]
  rfl

/-- The members around the array are not named like it. -/
theorem Divided.other_names {member : Json.Member}
    (divided : Divided program before after key elements)
    (inside : member ∈ before ++ after) :
    Json.decode member.1 ≠ text "insns" := by
  intro same
  have names := (divided.fields member inside).2
  rw [same] at names
  revert names
  decide

theorem Divided.headStrings_eq
    (divided : Divided program before after key elements) :
    headStrings (before ++ (key, Json.arrayTokens elements) :: after) =
      strings (headTokens before key) :=
  headStrings_append _ divided.named fun _ member =>
    divided.other_names (List.mem_append_left _ member)

/-- The strings of the array are opcodes and the keys of instructions. -/
theorem Divided.not_ends {word : Text}
    (divided : Divided program before after key elements) (isKey : Key word)
    (unknown : opcodeFromString word = none)
    (different : word ∉ [text "opcode", text "a", text "b", text "c"])
    (inside : .string content ∈ Json.arrayTokens elements) :
    ¬ Ends word (Json.raw content) := by
  intro ends
  rw [Json.arrayTokens, List.mem_cons, List.mem_append, List.mem_singleton]
    at inside
  have inElements : .string content ∈ Json.separated elements := by
    rcases inside with mark | inElements | mark
    · cases mark
    · exact inElements
    · cases mark
  rcases Json.mem_separated inElements with comma | ⟨item, isItem, inItem⟩
  · cases comma
  · obtain ⟨insn, object⟩ := exists_insnElement divided.each isItem
    obtain ⟨others, name, rfl, shape, all⟩ := object.members
    rcases all content (mem_strings.mpr inItem) with rfl |
      ⟨member, isMember, rfl, keys⟩
    · have known := shape.known
      rw [((ends_iff isKey (nameBytes_of_known known)).mp ends).1, unknown]
        at known
      cases known
    · have same := (shape.named isKey isMember ends).1
      rw [same] at keys
      apply different
      simpa using keys

/-- The token of a string in the list of strings. -/
theorem exists_split {tokens : List Json.Token}
    {earlier later : List (List Json.Part)}
    (split : strings tokens = earlier ++ content :: later) :
    ∃ left right, tokens = left ++ .string content :: right ∧
      strings left = earlier ∧ strings right = later := by
  obtain ⟨start, rest, rfl, rfl, behind⟩ :=
    List.filterMap_eq_append_iff.mp split
  obtain ⟨gap, token, right, rfl, none, isString, rfl⟩ :=
    List.filterMap_eq_cons_iff.mp behind
  refine ⟨start ++ gap, right, ?_, ?_, rfl⟩
  · cases token with
    | mark byte => cases isString
    | literal word => cases isString
    | string other =>
        cases isString
        rw [List.append_assoc]
  · have empty : strings gap = [] := List.filterMap_eq_nil_iff.mpr none
    rw [strings_append, empty, List.append_nil]
    rfl

/-- Between the strings of the head without brackets there is none. -/
theorem clear_of_strings {tokens : List Json.Token} {byte : UInt8}
    (bracket : byte = 91 ∨ byte = 93)
    (loose : ∀ token ∈ tokens, Loose token)
    (free : ∀ other ∈ strings tokens, byte ∉ Json.raw other) :
    ∀ token ∈ tokens.map ofJson, byte ∉ token.text := by
  intro token member inside
  obtain ⟨original, isMember, rfl⟩ := List.mem_map.mp member
  obtain ⟨content, rfl, inContent⟩ :=
    (loose original isMember).exists_string bracket inside
  exact free content (mem_strings.mpr isMember) inContent

/-- The tokens of the array, and those behind it. -/
theorem Divided.array_text (divided : Divided program before after key elements)
    (spaced : Spaced ((Json.arrayTokens elements ++ tailTokens after).map
      ofJson) input) :
    ∃ gap body rest, input = gap ++ (91 :: (body ++ [93]) ++ rest) ∧
      Blank gap ∧ 91 ∉ body ∧ 93 ∉ body ∧
      Spaced ((Json.separated elements).map ofJson) body ∧
      Spaced ((tailTokens after).map ofJson) rest := by
  have clear := separated_clear divided.each
  have opened : Spaced (.plain [91] :: ((Json.separated elements).map ofJson
      ++ .plain [93] :: (tailTokens after).map ofJson)) input := by
    simpa [Json.arrayTokens, ofJson] using spaced
  obtain ⟨gap, right, blank, rfl, spacedRight⟩ := Spaced.cons_iff.mp opened
  obtain ⟨body, rest, rfl, noClosing, spacedBody, spacedRest⟩ :=
    spacedRight.splitAt rfl fun token member => (clear token member).2
  have noOpening : 91 ∉ body := spacedBody.free rfl
    fun token member => (clear token member).1
  refine ⟨gap, body, rest, ?_, blank, noOpening, noClosing, spacedBody,
    spacedRest⟩
  simp [Token.text]

/-- If the array is found, its body is what stands between its brackets. -/
theorem Divided.arrayBody (divided : Divided program before after key elements)
    (found : ArrayFound (before ++ (key, Json.arrayTokens elements) :: after))
    (spaced : Spaced ((headTokens before key
      ++ (Json.arrayTokens elements ++ tailTokens after)).map ofJson) input) :
    ∃ body, ArrayBody input body ∧
      Spaced ((Json.separated elements).map ofJson) body := by
  obtain ⟨earlier, name, later, split, ends, none, free⟩ := found
  rw [divided.headStrings_eq] at split
  obtain ⟨left, right, same, rfl, rfl⟩ := exists_split split
  have regular := regular_map divided.numeric
  have looseRight : ∀ token ∈ right, Loose token := by
    intro token member
    apply divided.head_loose
    rw [same]
    exact List.mem_append_right _ (List.mem_cons_of_mem _ member)
  rw [same, List.append_assoc, List.cons_append, List.map_append,
    List.map_cons] at spaced regular
  have noneLeft : ∀ other, .quoted other ∈ left.map ofJson →
      ¬ Ends (text "insns") other := by
    intro other member
    obtain ⟨original, inside, equal⟩ := List.mem_map.mp member
    cases original with
    | mark byte => cases equal
    | literal word => cases equal
    | string content =>
        cases equal
        exact none content (mem_strings.mpr inside)
  obtain ⟨front, behind, whole, first, spacedBehind⟩ :=
    spaced.find_first key_insns regular ends noneLeft
  rw [List.map_append] at spacedBehind
  obtain ⟨start, array, rfl, spacedStart, spacedArray⟩ := spacedBehind.split
  obtain ⟨gap, body, rest, rfl, blank, noOpening, noClosing, spacedBody, _⟩ :=
    divided.array_text spacedArray
  have startFree : 91 ∉ start ++ gap := by
    apply (spacedStart.padEnd blank).free rfl
    exact clear_of_strings (.inl rfl) looseRight free
  refine ⟨body, ⟨front, _, 34 :: (text "insns" ++ 34 :: (start ++ gap)), rest,
    whole, first, by simp, ?_, ?_⟩, spacedBody⟩
  · have keyFree : 91 ∉ text "insns" := by decide
    simp only [List.mem_cons, List.mem_append, keyFree, false_or]
    rw [← List.mem_append]
    simpa using startFree
  · exact closes_pair (by decide) noOpening noClosing

/-- The name of an opcode is no part of a string. -/
theorem not_stringAt_raw {front here later value : Text}
    (inside : Json.raw content = front ++ (here ++ later)) :
    ¬ StringAt (text "opcode") here value := by
  intro ⟨left, right, rest, _, _, _, whole⟩
  have quote : Json.raw content = (front ++ 34 :: text "opcode")
      ++ 34 :: (left ++ 58 :: (right ++ 34 :: (value ++ 34 :: rest))
        ++ later) := by
    rw [inside, whole, fieldText]
    simp
  have last := Json.backslash_of_quote quote
  have ending : (34 :: text "opcode").getLast? = some 101 := by decide
  rw [List.getLast?_append, ending] at last
  cases last

/-- The body does not start inside a string before the array if nothing but
the array follows: it would not end. -/
theorem Divided.not_inside {between : List Json.Token} {read : List Insn}
    {gap rest : Text} (divided : Divided program before [] key elements)
    (keyFree : 93 ∉ Json.raw key)
    (clear : ∀ token ∈ between.map ofJson, 91 ∉ token.text)
    (bracket : 91 ∈ Json.raw content)
    (spaced : Spaced ((between ++ Json.Token.string content ::
      ([Json.Token.mark 44, .string key, .mark 58]
        ++ (Json.arrayTokens elements ++ tailTokens []))).map ofJson) input)
    (same : input = gap ++ 91 :: (body ++ 93 :: rest)) (free : 91 ∉ gap)
    (closes : Closes 91 93 (91 :: (body ++ [93])))
    (objects : Objects body read) : read = [] := by
  by_contra nonempty
  obtain ⟨front, here, value, inBody, stands⟩ :=
    objects.exists_opcode nonempty
  rw [List.map_append, List.map_cons] at spaced
  obtain ⟨start, others, rfl, spacedStart, spacedOthers⟩ := spaced.split
  have startFree : 91 ∉ start := spacedStart.free rfl clear
  obtain ⟨blank, behind, spaces, rfl, spacedBehind⟩ :=
    Spaced.cons_iff.mp spacedOthers
  obtain ⟨prefixed, later, split, prefixedFree⟩ :=
    List.eq_append_cons_of_mem bracket
  -- The body starts inside the string.
  have shape : start ++ (blank ++ ((ofJson (.string content)).text ++ behind)) =
      (start ++ (blank ++ 34 :: prefixed)) ++ 91 :: (later ++ 34 :: behind) := by
    rw [ofJson, Token.text, text_quote, split]
    simp
  have blankFree : 91 ∉ blank := by
    intro member
    have space := spaces 91 member
    cases space
  have beforeFree : 91 ∉ start ++ (blank ++ 34 :: prefixed) := by
    simp [startFree, blankFree, prefixedFree]
  rw [shape] at same
  obtain ⟨_, starts⟩ := eq_of_marked beforeFree free same
  rw [List.map_append] at spacedBehind
  obtain ⟨commas, array, rfl, spacedCommas, spacedArray⟩ := spacedBehind.split
  obtain ⟨space, inner, ending, rfl, spaceBlank, noOpening, noClosing, _,
    spacedEnding⟩ := divided.array_text spacedArray
  have commasFree : 93 ∉ commas ++ space := by
    apply (spacedCommas.padEnd spaceBlank).free rfl
    have loose : ∀ token ∈ [Json.Token.mark 44, .string key, .mark 58],
        Loose token := by simp [Loose]
    apply clear_of_strings (.inr rfl) loose
    simpa [strings] using keyFree
  have endingFree : 93 ∉ ending := spacedEnding.free rfl (by decide)
  rcases List.append_eq_append_iff.mp starts with
    ⟨more, longer, quote⟩ | ⟨more, within, bracketed⟩
  · -- The body ends behind the string, so at the end of the array.
    have closing : (34 :: (commas ++ space) ++ 91 :: inner) ++ 93 :: ending =
        more ++ 93 :: rest := by
      rw [← quote]
      simp
    have innerFree : 93 ∉ 34 :: (commas ++ space) ++ 91 :: inner := by
      simp only [List.mem_append, List.mem_cons] at commasFree ⊢
      simp [commasFree, noClosing]
    obtain ⟨rfl, _, rfl⟩ := (List.append_cons_inj_of_notMem innerFree
      endingFree).mp closing
    have whole : 91 :: (body ++ [93]) =
        91 :: (later ++ 34 :: (commas ++ space))
          ++ 91 :: (inner ++ [93]) := by
      rw [longer]
      simp
    rw [whole] at closes
    exact not_closes_append_pair (by decide) noOpening noClosing closes
  · -- The body is a part of the string, and so is the opcode.
    cases more with
    | nil => cases bracketed
    | cons first more =>
        refine not_stringAt_raw (?_ : Json.raw content =
          (prefixed ++ 91 :: front) ++ (here ++ first :: more)) stands
        rw [split, within, inBody]
        simp

theorem Divided.name_bytes {member : Json.Member}
    (divided : Divided program before after key elements)
    (inside : member ∈ before ++ after) :
    ∀ byte ∈ Json.decode member.1, nameByte byte = true := by
  rcases (divided.fields member inside).2 with same | same
  · exact nameBytes_of_eq same (by decide)
  · exact nameBytes_of_eq same (by decide)

theorem Divided.key_bytes
    (divided : Divided program before after key elements) :
    ∀ byte ∈ Json.decode key, nameByte byte = true :=
  nameBytes_of_eq divided.named (by decide)

theorem Divided.flat {member : Json.Member}
    (divided : Divided program before after key elements)
    (inside : member ∈ before ++ after) : Flat member := by
  obtain ⟨⟨content, single⟩, _⟩ := divided.fields member inside
  exact ⟨_, single, by simp⟩

/-- Behind the array no opcode is named. -/
theorem Divided.not_stringAt_tail {right : List Json.Token}
    {front here value : Text}
    (divided : Divided program before after key elements)
    (suffix : right <:+ tailTokens after)
    (spaced : Spaced (right.map ofJson) (front ++ here)) :
    ¬ StringAt (text "opcode") here value := by
  intro stands
  have numeric : ∀ token ∈ right, Numeric token := fun token member =>
    (divided.tail_loose token (suffix.subset member)).numeric
  obtain ⟨name, content, behind, field, ends, _⟩ :=
    stands.fieldIn key_opcode numeric spaced
  have inTail : FieldIn name (.string content) behind (tailTokens after) := by
    obtain ⟨start, whole⟩ := suffix
    obtain ⟨middle, rfl⟩ := fieldIn_iff.mp field
    exact fieldIn_iff.mpr ⟨start ++ middle, by rw [← whole]; simp⟩
  have flat : ∀ member ∈ after, Flat member := fun member inside =>
    divided.flat (List.mem_append_right _ inside)
  rcases fieldIn_trailing flat (by decide) (by decide) inTail with
    ⟨isMember, _⟩ | nothing
  · have inside := List.mem_append_right before isMember
    have same := ((ends_iff key_opcode (divided.name_bytes inside)).mp ends).1
    have names := (divided.fields _ inside).2
    rw [same] at names
    revert names
    decide
  · cases nothing

/-- A string with a bracket behind a value that ends with the key is the last
one before the array, with nothing but the array behind it. -/
theorem Divided.bracketed {left right : List Json.Token}
    {name other : List Json.Part}
    (divided : Divided program before after key elements)
    (whole : headTokens before key = left ++ .string name :: right)
    (ends : Ends (text "insns") (Json.raw name))
    (isString : other ∈ strings right) (bracket : 91 ∈ Json.raw other) :
    after = [] ∧ ∃ between, right = between ++ .string other ::
        [.mark 44, .string key, .mark 58] ∧
      ∀ token ∈ between.map ofJson, 91 ∉ token.text := by
  have suffix : .string name :: right <:+ headTokens before key :=
    ⟨left, whole.symm⟩
  have keyFree : 91 ∉ Json.raw key :=
    not_mem_raw divided.key_bytes (.inr (.inl rfl))
  have noEnd : ∀ member ∈ before, ¬ Ends (text "insns") (Json.raw member.1) :=
      by
    intro member inside endsMember
    have within := List.mem_append_left after inside
    exact divided.other_names within
      ((ends_iff key_insns (divided.name_bytes within)).mp endsMember).1
  have nameFree : ∀ member ∈ before, 91 ∉ Json.raw member.1 :=
    fun member inside => not_mem_raw
      (divided.name_bytes (List.mem_append_left after inside))
      (.inr (.inl rfl))
  have values : ∀ member ∈ before, ∃ content, member.2 = [.string content] :=
    fun member inside =>
      (divided.fields member (List.mem_append_left after inside)).1
  have few := divided.few
  -- Behind the key of the array, and behind the value before it, stands no
  -- other value.
  have last : ∀ {tokens : List Json.Token}, right = tokens →
      strings tokens = [] ∨ strings tokens = [key] → False := by
    intro tokens same none
    rw [same] at isString
    rcases none with none | none
    · rw [none] at isString
      cases isString
    · rw [none, List.mem_singleton] at isString
      exact keyFree (isString ▸ bracket)
  cases before with
  | nil =>
      simp only [headTokens, List.flatMap_nil, List.nil_append,
        List.suffix_cons_iff, List.cons.injEq, Json.Token.string.injEq,
        reduceCtorEq, false_and, false_or, List.suffix_nil, or_false] at suffix
      exact (last suffix.2 (.inl rfl)).elim
  | cons first before =>
      obtain ⟨firstKey, firstValue⟩ := first
      obtain ⟨firstContent, same⟩ := values _ List.mem_cons_self
      cases same
      have noEndFirst := noEnd _ List.mem_cons_self
      cases before with
      | nil =>
          simp only [headTokens, Json.memberTokens, List.flatMap_cons,
            List.flatMap_nil, List.append_nil, List.cons_append,
            List.nil_append, List.suffix_cons_iff, List.cons.injEq,
            Json.Token.string.injEq, reduceCtorEq, false_and, false_or,
            List.suffix_nil, or_false] at suffix
          rcases suffix with ⟨rfl, _⟩ | ⟨_, behind⟩ | ⟨_, behind⟩
          · exact absurd ends noEndFirst
          · exact (last behind (.inr rfl)).elim
          · exact (last behind (.inl rfl)).elim
      | cons second before =>
          obtain ⟨secondKey, secondValue⟩ := second
          have isSecond := List.mem_cons_of_mem (firstKey,
            [Json.Token.string firstContent])
            (@List.mem_cons_self _ (secondKey, secondValue) before)
          obtain ⟨secondContent, same⟩ := values _ isSecond
          cases same
          have noEndSecond := noEnd _ isSecond
          have secondFree := nameFree _ isSecond
          have none : before = [] ∧ after = [] := by
            rw [List.length_append, List.length_cons, List.length_cons] at few
            constructor
            · exact List.length_eq_zero_iff.mp (by omega)
            · exact List.length_eq_zero_iff.mp (by omega)
          obtain ⟨rfl, rfl⟩ := none
          simp only [headTokens, Json.memberTokens, List.flatMap_cons,
            List.flatMap_nil, List.append_nil, List.cons_append,
            List.nil_append, List.suffix_cons_iff, List.cons.injEq,
            Json.Token.string.injEq, reduceCtorEq, false_and, false_or,
            List.suffix_nil, or_false] at suffix
          rcases suffix with ⟨rfl, _⟩ | ⟨_, behind⟩ | ⟨rfl, _⟩ | ⟨_, behind⟩ |
            ⟨_, behind⟩
          · exact absurd ends noEndFirst
          · have strings_right : strings right =
                [secondKey, secondContent, key] := by
              rw [behind]
              rfl
            simp only [strings_right, List.mem_cons, List.not_mem_nil,
              or_false] at isString
            rcases isString with rfl | rfl | rfl
            · exact absurd bracket secondFree
            · refine ⟨rfl, [.mark 44, .string secondKey, .mark 58], behind, ?_⟩
              apply clear_of_strings (.inl rfl)
              · simp [Loose]
              · simpa [strings] using secondFree
            · exact absurd bracket keyFree
          · exact absurd ends noEndSecond
          · exact (last behind (.inr rfl)).elim
          · exact (last behind (.inl rfl)).elim

/-- The key that is found stands before the array. -/
theorem Divided.key_in_head {left right : List Json.Token}
    {name : List Json.Part} {front here value : Text}
    (divided : Divided program before after key elements)
    (whole : headTokens before key
      ++ (Json.arrayTokens elements ++ tailTokens after) =
        left ++ .string name :: right)
    (ends : Ends (text "insns") (Json.raw name))
    (spaced : Spaced (right.map ofJson) (front ++ here))
    (stands : StringAt (text "opcode") here value) :
    ∃ others, headTokens before key = left ++ .string name :: others ∧
      right = others ++ (Json.arrayTokens elements ++ tailTokens after) := by
  have notTail : ∀ {start}, tailTokens after = start ++ .string name :: right →
      False := by
    intro start inTail
    refine divided.not_stringAt_tail ⟨start ++ [.string name], ?_⟩ spaced stands
    rw [inTail]
    simp
  have notArray : .string name ∉ Json.arrayTokens elements := fun inside =>
    divided.not_ends key_insns (by decide) (by decide) inside
      ends
  rcases List.append_eq_append_iff.mp whole with
    ⟨more, _, behind⟩ | ⟨more, inHead, behind⟩
  · -- The name is in the array, or behind it.
    exfalso
    rcases List.append_eq_append_iff.mp behind with
      ⟨others, _, inTail⟩ | ⟨others, inArray, inTail⟩
    · exact notTail inTail
    · cases others with
      | nil => exact @notTail [] inTail.symm
      | cons token others =>
          obtain ⟨rfl, _⟩ := List.cons_eq_cons.mp inTail
          apply notArray
          rw [inArray]
          simp
  · cases more with
    | nil =>
        obtain ⟨mark, _⟩ := List.cons_eq_cons.mp behind
        cases mark
    | cons token others =>
        obtain ⟨rfl, rest⟩ := List.cons_eq_cons.mp behind
        exact ⟨others, inHead, rest⟩

/-- If instructions are read, the array is found. -/
theorem Divided.arrayFound {read : List Insn}
    (divided : Divided program before after key elements)
    (spaced : Spaced ((headTokens before key
      ++ (Json.arrayTokens elements ++ tailTokens after)).map ofJson) input)
    (array : ArrayBody input body) (objects : Objects body read)
    (nonempty : read ≠ []) :
    ArrayFound (before ++ (key, Json.arrayTokens elements) :: after) := by
  obtain ⟨front, here, skipped, rest, rfl, first, split, free, closes⟩ := array
  obtain ⟨inFront, opcodeHere, value, inBody, stands⟩ :=
    objects.exists_opcode nonempty
  obtain ⟨mapped, word, mappedAfter, later, same, ends, none, found,
    spacedLater⟩ :=
    spaced.first_occurrence key_insns (regular_map divided.numeric) first
  obtain ⟨left, name, right, whole, rfl, rfl, rfl⟩ := exists_string same
  -- The body comes behind the key.
  have keyFree : 91 ∉ 34 :: (text "insns" ++ [34]) := by decide
  have behind : skipped ++ 91 :: (body ++ 93 :: rest) =
      (34 :: (text "insns" ++ [34])) ++ later := by
    rw [split] at found
    simpa using found
  obtain ⟨gap, inSkipped, starts⟩ := append_of_marked keyFree behind
  have gapFree : 91 ∉ gap := by
    intro member
    apply free
    rw [inSkipped]
    exact List.mem_append_right _ member
  have positioned : later = (gap ++ 91 :: inFront)
      ++ (opcodeHere ++ 93 :: rest) := by
    rw [← starts, inBody]
    simp
  obtain ⟨others, inHead, rfl⟩ := divided.key_in_head whole ends
    (positioned ▸ spacedLater) (stands.append _)
  refine ⟨strings left, name, strings others, ?_, ends, ?_, ?_⟩
  · rw [divided.headStrings_eq, inHead, strings_append]
    rfl
  · intro other member
    apply none
    exact List.mem_map_of_mem (mem_strings.mp member)
  · intro other isString bracket
    obtain ⟨rfl, between, rfl, clear⟩ :=
      divided.bracketed inHead ends isString bracket
    rw [List.append_assoc, List.cons_append] at spacedLater
    apply nonempty
    exact divided.not_inside
      (not_mem_raw divided.key_bytes (.inr (.inr (.inl rfl)))) clear bracket
      spacedLater starts.symm gapFree closes objects

end Documents

end T81VM.ProgramIo
