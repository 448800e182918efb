import T81VM.ProgramIo.JsonGrammar

/-!
# TISC JSON V1

The layouts of a program as a JSON document, and that each of them loads as
the program.  The loader searches the document for quoted keys; between two
quotes stand the content of a string or only spaces, punctuation and numbers.
-/

namespace T81VM.ProgramIo

open Tisc GreedyRegex Scan

/-- A token of a document: a string, or anything else. -/
inductive Token where
  | quoted (word : Text)
  | plain (word : Text)
  deriving DecidableEq

def Token.text : Token → Text
  | .quoted word => T81VM.text "\"" ++ (word ++ T81VM.text "\"")
  | .plain word => word

/-- Tokens with any spaces around them. -/
inductive Spaced : List Token → Text → Prop where
  | done {blank : Text} (spaces : Blank blank) : Spaced [] blank
  | next {blank rest : Text} {token : Token} {tokens : List Token}
      (spaces : Blank blank) (later : Spaced tokens rest) :
      Spaced (token :: tokens) (blank ++ (token.text ++ rest))

/-- The member `opcode` of an instruction object. -/
def nameMember (spelled : Spelled) : List Token :=
  [.quoted (text "opcode"), .plain (text ":"), .quoted spelled.name]

/-- An operand of an instruction object. -/
def operandMember (key : Text) (value : Int64) : List Token :=
  [.quoted key, .plain (text ":"), .plain (number value)]

/-- The tokens between the braces of an instruction object. -/
def memberTokens (spelled : Spelled) : List Token :=
  nameMember spelled ++ .plain (text ",") ::
    (operandMember (text "a") spelled.insn.a ++ .plain (text ",") ::
      (operandMember (text "b") spelled.insn.b ++ .plain (text ",") ::
        operandMember (text "c") spelled.insn.c))

/-- The tokens of an instruction object. -/
def objectTokens (spelled : Spelled) : List Token :=
  .plain (text "\x7b") :: (memberTokens spelled ++ [.plain (text "\x7d")])

/-- The objects after the first one, each after a comma. -/
def moreTokens (spelled : List Spelled) : List Token :=
  spelled.flatMap fun other => .plain (text ",") :: objectTokens other

/-- The tokens of the array body. -/
def bodyTokens : List Spelled → List Token
  | [] => []
  | first :: others => objectTokens first ++ moreTokens others

/-- The tokens of a document. -/
def documentTokens (policy : Text) (spelled : List Spelled) : List Token :=
  [.plain (text "\x7b"),
    .quoted (text "format_version"), .plain (text ":"),
    .quoted (text "tisc-json-v1"), .plain (text ","),
    .quoted (text "axion_policy_text"), .plain (text ":"), .quoted policy,
    .plain (text ","),
    .quoted (text "insns"), .plain (text ":"), .plain (text "[")]
    ++ (bodyTokens spelled ++ [.plain (text "]"), .plain (text "\x7d")])

/-- The document renders the program. -/
def RendersTiscJsonV1 (program : Program) (input : Text) : Prop :=
  ∃ spelled : List Spelled, spelled.map Spelled.insn = program.insns ∧
    Spaced (documentTokens program.axionPolicyText spelled) input

/-! ## Spaced tokens -/

variable {tokens before after : List Token} {input rest blank word key : Text}
  {token : Token}

theorem Spaced.cons_iff :
    Spaced (token :: tokens) input ↔
      ∃ blank rest, Blank blank ∧ input = blank ++ (token.text ++ rest) ∧
        Spaced tokens rest := by
  constructor
  · intro spaced
    cases spaced with
    | next spaces later => exact ⟨_, _, spaces, rfl, later⟩
  · rintro ⟨blank, rest, spaces, rfl, later⟩
    exact .next spaces later

/-- Spaces in front belong to the first token. -/
theorem Spaced.pad (spaces : Blank blank) (spaced : Spaced tokens input) :
    Spaced tokens (blank ++ input) := by
  cases spaced with
  | done others => exact .done (spaces.append others)
  | next others later =>
      rw [← List.append_assoc]
      exact .next (spaces.append others) later

/-- Split a text between two tokens. -/
theorem Spaced.split (spaced : Spaced (before ++ after) input) :
    ∃ left right, input = left ++ right ∧ Spaced before left ∧
      Spaced after right := by
  induction before generalizing input with
  | nil => exact ⟨[], input, rfl, .done (by simp [Blank]), spaced⟩
  | cons token others induction =>
      obtain ⟨blank, rest, spaces, rfl, later⟩ := Spaced.cons_iff.mp spaced
      obtain ⟨left, right, rfl, leftSpaced, rightSpaced⟩ := induction later
      refine ⟨blank ++ (token.text ++ left), right, by simp, ?_, rightSpaced⟩
      exact .next spaces leftSpaced

/-- Spaces at the end follow the last token. -/
theorem Spaced.padEnd (spaces : Blank blank) (spaced : Spaced tokens input) :
    Spaced tokens (input ++ blank) := by
  induction spaced with
  | done others => exact .done (others.append spaces)
  | next others later induction =>
      rw [List.append_assoc, List.append_assoc]
      exact .next others induction

theorem Spaced.append {left right : Text} (first : Spaced before left)
    (second : Spaced after right) : Spaced (before ++ after) (left ++ right) := by
  induction first with
  | done spaces => exact second.pad spaces
  | next spaces later induction =>
      rw [List.append_assoc, List.append_assoc]
      exact .next spaces induction

/-- The same spaces in front of every token. -/
theorem Spaced.flatMap (spaces : Blank blank) (tokens : List Token) :
    Spaced tokens (tokens.flatMap fun token => blank ++ token.text) := by
  induction tokens with
  | nil => exact .done (by simp [Blank])
  | cons token others induction =>
      rw [List.flatMap_cons, List.append_assoc]
      exact .next spaces induction

/-- A visible byte of the text is a byte of a token. -/
theorem Spaced.free {byte : UInt8} (visible : isSpace byte = false)
    (absent : ∀ token ∈ tokens, byte ∉ token.text)
    (spaced : Spaced tokens input) : byte ∉ input := by
  have outside : ∀ {blank : Text}, Blank blank → byte ∉ blank := by
    intro blank spaces member
    have space := spaces byte member
    rw [visible] at space
    cases space
  induction spaced with
  | done spaces => exact outside spaces
  | next spaces later induction =>
      intro member
      rcases List.mem_append.mp member with inBlank | member
      · exact outside spaces inBlank
      · rcases List.mem_append.mp member with inToken | inRest
        · exact absent _ List.mem_cons_self inToken
        · exact induction (fun other member =>
            absent other (List.mem_cons_of_mem _ member)) inRest

/-- Split a text at a token of one byte that no earlier token has. -/
theorem Spaced.splitAt {byte : UInt8} (visible : isSpace byte = false)
    (absent : ∀ token ∈ before, byte ∉ token.text)
    (spaced : Spaced (before ++ .plain [byte] :: after) input) :
    ∃ left right, input = left ++ byte :: right ∧ byte ∉ left ∧
      Spaced before left ∧ Spaced after right := by
  obtain ⟨left, right, rfl, leftSpaced, rightSpaced⟩ := spaced.split
  obtain ⟨blank, rest, spaces, rfl, later⟩ := Spaced.cons_iff.mp rightSpaced
  have whole := leftSpaced.padEnd spaces
  exact ⟨left ++ blank, rest, by simp [Token.text],
    whole.free visible absent, whole, later⟩

/-! ## Keys -/

/-- The bytes of keys: letters and `_`. -/
def keyByte (byte : UInt8) : Bool :=
  (97 ≤ byte && byte ≤ 122) || isByte '_' byte

@[grind =] theorem keyByte_eq (byte : UInt8) :
    keyByte byte = ((97 ≤ byte && byte ≤ 122) || byte == 95) := rfl

/-- Not empty, and nothing but key bytes. -/
def Key (key : Text) : Prop :=
  key ≠ [] ∧ ∀ byte ∈ key, keyByte byte = true

instance (key : Text) : Decidable (Key key) :=
  inferInstanceAs (Decidable (_ ∧ _))

/-- Strings have no quotes inside, other tokens no quotes and no key bytes,
and no string is the key. -/
def Token.Avoids (key : Text) : Token → Prop
  | .quoted word => 34 ∉ word ∧ word ≠ key
  | .plain word => ∀ byte ∈ word, byte ≠ 34 ∧ keyByte byte = false

theorem not_keyByte_of_isSpace (byte : UInt8) :
    isSpace byte = true → byte ≠ 34 ∧ keyByte byte = false := by
  grind

theorem Key.quote_free (isKey : Key key) : 34 ∉ key := by
  intro member
  have inside := isKey.2 34 member
  cases inside

/-- A text without key bytes is no key. -/
theorem Key.ne_of_free (isKey : Key key)
    (free : ∀ byte ∈ word, byte ≠ 34 ∧ keyByte byte = false) :
    word ≠ key := by
  rintro rfl
  obtain ⟨first, others, cons⟩ := List.exists_cons_of_ne_nil isKey.1
  have member : first ∈ word := cons ▸ List.mem_cons_self
  have inside := isKey.2 first member
  rw [(free first member).2] at inside
  cases inside

/-- The first string that is the key, in a text divided by its quotes. -/
theorem Spaced.fields (isKey : Key key)
    (avoids : ∀ token ∈ before, token.Avoids key)
    (spaced : Spaced (before ++ .quoted key :: after) input) :
    ∃ first fields rest,
      input = delimit 34 (first :: fields) (key ++ 34 :: rest) ∧
      (∀ byte ∈ first, byte ≠ 34 ∧ keyByte byte = false) ∧
      (∀ field ∈ fields, 34 ∉ field ∧ field ≠ key) ∧
      Spaced after rest := by
  induction before generalizing input with
  | nil =>
      obtain ⟨blank, rest, spaces, rfl, later⟩ := Spaced.cons_iff.mp spaced
      refine ⟨blank, [], rest, by simp [Token.text, delimit, text_quote], ?_,
        by simp, later⟩
      exact fun byte member => not_keyByte_of_isSpace byte (spaces byte member)
  | cons token others induction =>
      obtain ⟨blank, rest, spaces, rfl, later⟩ := Spaced.cons_iff.mp spaced
      have here := avoids token List.mem_cons_self
      obtain ⟨first, fields, found, rfl, free, differ, remaining⟩ :=
        induction (fun other member =>
          avoids other (List.mem_cons_of_mem token member)) later
      have blankFree : ∀ byte ∈ blank, byte ≠ 34 ∧ keyByte byte = false :=
        fun byte member => not_keyByte_of_isSpace byte (spaces byte member)
      cases token with
      | plain word =>
          -- The field goes on.
          refine ⟨blank ++ (word ++ first), fields, found,
            by simp [Token.text, delimit], ?_, differ, remaining⟩
          intro byte member
          rcases List.mem_append.mp member with inBlank | member
          · exact blankFree byte inBlank
          · rcases List.mem_append.mp member with inWord | inFirst
            · exact here byte inWord
            · exact free byte inFirst
      | quoted word =>
          -- Two fields: the string, and what stood before the next one.
          refine ⟨blank, word :: first :: fields, found,
            by simp [Token.text, delimit, text_quote], blankFree, ?_,
            remaining⟩
          intro field member
          rcases List.mem_cons.mp member with rfl | member
          · exact here
          · rcases List.mem_cons.mp member with rfl | member
            · exact ⟨fun quote => (free 34 quote).1 rfl, isKey.ne_of_free free⟩
            · exact differ field member

/-! ## Fields -/

/-- A number is captured up to a byte that is no digit. -/
theorem prefers_number {value : Int64}
    (stops : ∀ byte ∈ rest.head?, Decimal.isDigit byte = false) :
    ∃ result, Prefers
        [.capture [.optional (isByte '-'), .plus Decimal.isDigit]]
        (number value ++ rest) result ∧
      result.captures = [number value] := by
  have digits := Decimal.natural_isDigit value.toInt.natAbs
  have nonempty := Decimal.natural_ne_nil value.toInt.natAbs
  have matched := @prefers_digits rest _ (decide (value.toInt < 0)) nonempty
    digits stops
  rw [number_eq]
  by_cases negative : value.toInt < 0
  · rw [if_pos negative]
    simpa [signedDigits, negative] using matched
  · rw [if_neg negative]
    simpa [signedDigits, negative] using matched

/-- A field expression finds the first string that is its key. -/
theorem firstCapture_spaced {pieces : List (Piece UInt8)} {value : Text}
    (isKey : Key key) (avoids : ∀ token ∈ before, token.Avoids key)
    (spaced : Spaced (before ++ .quoted key :: .plain (text ":") :: after)
      input)
    (matched : ∀ rest, Spaced after rest → ∃ blank later result,
      Blank blank ∧ rest = blank ++ later ∧
      (∀ byte ∈ later.head?, isSpace byte = false) ∧
      Prefers pieces later result ∧ result.captures = [value]) :
    firstCapture (fieldRe key ++ pieces) input = some value := by
  obtain ⟨first, fields, rest, rfl, free, differ, remaining⟩ :=
    spaced.fields isKey avoids
  obtain ⟨left, value, leftBlank, rfl, spacedValue⟩ :=
    Spaced.cons_iff.mp remaining
  obtain ⟨right, later, result, rightBlank, rfl, visible, prefers,
    captures⟩ := matched value spacedValue
  obtain ⟨whole, found, sameCaptures⟩ :=
    @prefers_field key _ _ _ _ _ leftBlank rightBlank visible prefers
  have firstFree : 34 ∉ first := fun quote => (free 34 quote).1 rfl
  rw [fieldRe, List.append_assoc] at found
  have searched := search_marked isKey.quote_free firstFree differ found
  rw [firstCapture, fieldRe, List.append_assoc]
  have regroup : literal (text "\"" ++ (key ++ text "\"")) =
      literal (34 :: (key ++ [34])) := rfl
  have colon : (Token.plain (text ":")).text ++ (right ++ later) =
      58 :: (right ++ later) := rfl
  rw [regroup, colon, searched, Option.bind_some, sameCaptures, captures]
  rfl

/-- The string of a key. -/
theorem parseStringField_spaced {value : Text} (isKey : Key key)
    (avoids : ∀ token ∈ before, token.Avoids key) (free : 34 ∉ value)
    (spaced : Spaced (before ++ .quoted key :: .plain (text ":")
      :: .quoted value :: after) input) :
    parseStringField input key = some value := by
  apply firstCapture_spaced isKey avoids spaced
  intro rest remaining
  obtain ⟨blank, last, spaces, rfl, _⟩ := Spaced.cons_iff.mp remaining
  obtain ⟨result, prefers, captures⟩ := @prefers_string last value free
  have regroup : (Token.quoted value).text ++ last =
      34 :: (value ++ 34 :: last) := by simp [Token.text, text_quote]
  rw [regroup]
  exact ⟨blank, _, result, spaces, rfl, stops_at rfl, prefers, captures⟩

/-- The integer of a key, before a token that is one byte and no digit. -/
theorem parseIntField_spaced {value : Int64} {byte : UInt8} (isKey : Key key)
    (avoids : ∀ token ∈ before, token.Avoids key)
    (noDigit : Decimal.isDigit byte = false)
    (spaced : Spaced (before ++ .quoted key :: .plain (text ":")
      :: .plain (number value) :: .plain [byte] :: after) input) :
    parseIntField input key = .ok (some value) := by
  have captured : firstCapture (intFieldRe key) input =
      some (number value) := by
    apply firstCapture_spaced isKey avoids spaced
    intro rest remaining
    obtain ⟨blank, last, spaces, rfl, spacedLast⟩ :=
      Spaced.cons_iff.mp remaining
    obtain ⟨gap, others, gapBlank, rfl, _⟩ := Spaced.cons_iff.mp spacedLast
    have stops : ∀ other ∈ (gap ++ ((Token.plain [byte]).text
        ++ others)).head?, Decimal.isDigit other = false := by
      cases gap with
      | nil => exact stops_at noDigit
      | cons space spaces =>
          apply stops_at
          exact not_isDigit_of_isSpace space
            (gapBlank space List.mem_cons_self)
    obtain ⟨result, prefers, captures⟩ := @prefers_number _ value stops
    refine ⟨blank, _, result, spaces, rfl, ?_, prefers, captures⟩
    obtain ⟨first, digits, cons⟩ :=
      List.exists_cons_of_ne_nil (number_ne_nil value)
    have visible := not_isSpace_of_numberByte first
      (number_bytes value first (cons ▸ List.mem_cons_self))
    rw [Token.text, cons]
    exact stops_at visible
  rw [parseIntField, captured]
  simp only [stoll_number]
  rfl

/-! ## Brackets -/

/-- The bytes of names are neither quotes nor brackets. -/
theorem nameByte_plain (byte : UInt8) :
    nameByte byte = true →
      byte ≠ 34 ∧ byte ≠ 91 ∧ byte ≠ 93 ∧ byte ≠ 123 ∧ byte ≠ 125 := by
  grind

theorem numberByte_plain (byte : UInt8) :
    numberByte byte = true →
      nameByte byte = true ∧ byte ≠ 34 ∧ keyByte byte = false := by
  grind

instance (key : Text) (token : Token) : Decidable (token.Avoids key) :=
  match token with
  | .quoted _ => inferInstanceAs (Decidable (_ ∧ _))
  | .plain _ => inferInstanceAs (Decidable (∀ _ ∈ _, _))

variable {spelled first : Spelled} {others : List Spelled}

theorem plain_avoids
    (free : ∀ byte ∈ word, byte ≠ 34 ∧ keyByte byte = false) :
    Token.Avoids key (.plain word) := free

theorem number_avoids (value : Int64) :
    Token.Avoids key (.plain (number value)) := by
  intro byte member
  exact (numberByte_plain byte (number_bytes value byte member)).2

/-- A name is not a key that is no name. -/
theorem name_avoids (unknown : opcodeFromString key = none) :
    Token.Avoids key (.quoted spelled.name) := by
  obtain ⟨_, bytes⟩ := nameByte_of_opcodeFromString spelled.spells
  constructor
  · intro quote
    exact (nameByte_plain 34 (bytes 34 quote)).1 rfl
  · intro same
    have spells := spelled.spells
    rw [same, unknown] at spells
    cases spells

/-- The members of an instruction have no brackets. -/
theorem memberTokens_free {byte : UInt8}
    (bracket : byte = 91 ∨ byte = 93 ∨ byte = 123 ∨ byte = 125) :
    ∀ token ∈ memberTokens spelled, byte ∉ token.text := by
  obtain ⟨_, bytes⟩ := nameByte_of_opcodeFromString spelled.spells
  have noName : ∀ other, nameByte other = true → byte ≠ other := by
    rintro other isName rfl
    have plain := nameByte_plain byte isName
    rcases bracket with rfl | rfl | rfl | rfl <;> simp at plain
  have numbers : ∀ value, byte ∉ number value := by
    intro value member
    have isName := numberByte_plain byte (number_bytes value byte member)
    exact noName byte isName.1 rfl
  have name : byte ∉ (Token.quoted spelled.name).text := by
    intro member
    simp only [Token.text, text_quote, List.mem_append, List.mem_singleton]
      at member
    rcases member with rfl | inName | rfl
    · simp at bracket
    · exact noName byte (bytes byte inName) rfl
    · simp at bracket
  have fixed : ∀ token ∈ [Token.quoted (text "opcode"), .plain (text ":"),
      .plain (text ","), .quoted (text "a"), .quoted (text "b"),
      .quoted (text "c")], byte ∉ token.text := by
    rcases bracket with rfl | rfl | rfl | rfl <;> decide
  intro token member
  simp only [memberTokens, nameMember, operandMember, List.cons_append,
    List.nil_append, List.mem_cons, List.not_mem_nil, or_false] at member
  rcases member with rfl | rfl | rfl | rfl | rfl | rfl | rfl | rfl | rfl |
    rfl | rfl | rfl | rfl | rfl | rfl
  all_goals first
    | exact name
    | exact numbers _
    | exact fixed _ (by decide)

/-! ## Instructions -/

theorem key_opcode : Key (text "opcode") := by decide
theorem key_a : Key (text "a") := by decide
theorem key_b : Key (text "b") := by decide
theorem key_c : Key (text "c") := by decide

/-- No opcode is named like an operand. -/
theorem operand_unknown :
    opcodeFromString (text "a") = none ∧ opcodeFromString (text "b") = none ∧
      opcodeFromString (text "c") = none := by
  decide

theorem objectTokens_text {inside : Text}
    (spaced : Spaced (memberTokens spelled) inside) :
    Spaced (objectTokens spelled) (123 :: (inside ++ [125])) := by
  have empty : Blank [] := by simp [Blank]
  have closing : Spaced [.plain (text "\x7d")] [125] :=
    .next empty (.done empty)
  exact .next empty (spaced.append closing)

/-- The fields of an instruction object are its instruction. -/
theorem parse_object {obj : Text} (spaced : Spaced (objectTokens spelled) obj) :
    parseStringField obj (text "opcode") = some spelled.name ∧
      parseOperands obj = .ok (some (spelled.insn.a, spelled.insn.b,
        spelled.insn.c)) := by
  have nameFree : 34 ∉ spelled.name := fun quote =>
    (nameByte_plain 34 ((nameByte_of_opcodeFromString spelled.spells).2 34
      quote)).1 rfl
  have name : ∀ {key}, opcodeFromString key = none → text "opcode" ≠ key →
      ∀ token ∈ .plain (text "\x7b") :: (nameMember spelled
        ++ [.plain (text ",")]), token.Avoids key := by
    intro key unknown different
    simp only [nameMember, List.cons_append, List.nil_append]
    refine List.forall_mem_cons.mpr ⟨plain_avoids (by decide), ?_⟩
    refine List.forall_mem_cons.mpr ⟨⟨by decide, different⟩, ?_⟩
    refine List.forall_mem_cons.mpr ⟨plain_avoids (by decide), ?_⟩
    refine List.forall_mem_cons.mpr ⟨name_avoids unknown, ?_⟩
    exact List.forall_mem_singleton.mpr (plain_avoids (by decide))
  have operand : ∀ {key other value}, 34 ∉ other → other ≠ key →
      ∀ token ∈ operandMember other value ++ [.plain (text ",")],
        token.Avoids key := by
    intro key other value free different
    simp only [operandMember, List.cons_append, List.nil_append]
    refine List.forall_mem_cons.mpr ⟨⟨free, different⟩, ?_⟩
    refine List.forall_mem_cons.mpr ⟨plain_avoids (by decide), ?_⟩
    refine List.forall_mem_cons.mpr ⟨number_avoids value, ?_⟩
    exact List.forall_mem_singleton.mpr (plain_avoids (by decide))
  have both : ∀ {key first second},
      (∀ token ∈ first, Token.Avoids key token) →
      (∀ token ∈ second, Token.Avoids key token) →
      ∀ token ∈ first ++ second, Token.Avoids key token :=
    fun left right => List.forall_mem_append.mpr ⟨left, right⟩
  obtain ⟨noA, noB, noC⟩ := operand_unknown
  have opcode := @parseStringField_spaced [.plain (text "\x7b")] _ obj
    (text "opcode") spelled.name key_opcode (by decide) nameFree spaced
  have a := @parseIntField_spaced _ _ obj _ spelled.insn.a 44 key_a
    (name noA (by decide)) rfl spaced
  have b := @parseIntField_spaced _ _ obj _ spelled.insn.b 44 key_b
    (both (name noB (by decide))
      (@operand _ _ spelled.insn.a (by decide) (by decide))) rfl spaced
  have c := @parseIntField_spaced _ _ obj _ spelled.insn.c 125 key_c
    (both (both (name noC (by decide))
      (@operand _ _ spelled.insn.a (by decide) (by decide)))
      (@operand _ _ spelled.insn.b (by decide) (by decide))) rfl spaced
  refine ⟨opcode, ?_⟩
  rw [parseOperands, a]
  simp only [b, c, bind, Except.bind]
  rfl

/-! ## The array -/

/-- The next object of the array is an instruction. -/
theorem Spaced.next_object {insns : List Insn}
    (noBrace : ∀ token ∈ before, 123 ∉ token.text)
    (spaced : Spaced (before ++ (objectTokens spelled ++ after)) input)
    (later : ∀ rest, Spaced after rest → Objects rest insns) :
    Objects input (spelled.insn :: insns) := by
  have opened : Spaced (before ++ .plain [123] :: (memberTokens spelled
      ++ .plain [125] :: after)) input := by
    have regroup : objectTokens spelled ++ after =
        .plain [123] :: (memberTokens spelled ++ .plain [125] :: after) := by
      rw [objectTokens, List.cons_append, List.append_assoc]
      rfl
    rwa [regroup] at spaced
  obtain ⟨left, right, rfl, leftFree, _, spacedRight⟩ :=
    opened.splitAt rfl noBrace
  obtain ⟨inside, rest, rfl, insideFree, spacedInside, spacedRest⟩ :=
    spacedRight.splitAt rfl (memberTokens_free (by simp))
  have noOpening : 123 ∉ inside :=
    spacedInside.free rfl (memberTokens_free (by simp))
  obtain ⟨opcode, operands⟩ := parse_object (objectTokens_text spacedInside)
  obtain ⟨a, b, c⟩ := parseOperands_eq_ok_iff.mp operands
  have whole : 123 :: (inside ++ 125 :: rest) =
      123 :: (inside ++ [125]) ++ rest := by simp
  rw [whole]
  exact .next leftFree (closes_pair (by decide) noOpening insideFree)
    (parseStringField_eq_some_iff.mp opcode) spelled.spells a b c
    (later rest spacedRest)

/-- The objects of the array are its instructions. -/
theorem objects_rendered (noBrace : ∀ token ∈ before, 123 ∉ token.text)
    (spaced : Spaced (before ++ (objectTokens first ++ moreTokens others))
      input) : Objects input ((first :: others).map Spelled.insn) := by
  induction others generalizing before first input with
  | nil =>
      apply spaced.next_object noBrace
      intro rest blank
      exact .done (blank.free rfl (by simp [moreTokens]))
  | cons second others induction =>
      apply spaced.next_object noBrace
      intro rest later
      have comma : ∀ token ∈ [Token.plain (text ",")], 123 ∉ token.text := by
        decide
      exact induction comma later

/-! ## Documents -/

/-- The first string that is the key is found. -/
theorem find_spaced (isKey : Key key)
    (avoids : ∀ token ∈ before, token.Avoids key)
    (spaced : Spaced (before ++ .quoted key :: after) input) :
    ∃ rest, find (34 :: (key ++ [34])) input =
        some (34 :: (key ++ 34 :: rest)) ∧ Spaced after rest := by
  obtain ⟨first, fields, rest, rfl, free, differ, remaining⟩ :=
    spaced.fields isKey avoids
  have firstFree : 34 ∉ first := fun quote => (free 34 quote).1 rfl
  exact ⟨rest, find_marked isKey.quote_free firstFree differ, remaining⟩

theorem key_insns : Key (text "insns") := by decide

/-- The bracket after the key `insns` opens the array, also when the policy is
that word. -/
theorem find_array {policy : Text} {spelled : List Spelled}
    (free : 34 ∉ policy)
    (spaced : Spaced (documentTokens policy spelled) input) :
    ∃ start rest, find (text "\"insns\"") input = some start ∧
      find (text "[") start = some (91 :: rest) ∧
      Spaced (bodyTokens spelled ++ [.plain (text "]"),
        .plain (text "\x7d")]) rest := by
  have finish : ∀ {before : List Token} {later : Text},
      (∀ token ∈ before, 91 ∉ token.text) →
      Spaced (before ++ .plain [91] :: (bodyTokens spelled
        ++ [.plain (text "]"), .plain (text "\x7d")])) later →
      ∃ rest, find (text "[") (34 :: (text "insns" ++ 34 :: later)) =
          some (91 :: rest) ∧
        Spaced (bodyTokens spelled ++ [.plain (text "]"),
          .plain (text "\x7d")]) rest := by
    intro before later noBracket spacedLater
    obtain ⟨left, right, rfl, leftFree, _, spacedRight⟩ :=
      spacedLater.splitAt rfl noBracket
    have keyFree : 91 ∉ 34 :: (text "insns" ++ 34 :: left) := by
      simp only [List.mem_cons, List.mem_append, leftFree, or_false]
      decide
    have found := @find_one _ 91 right _ _ _ keyFree
    refine ⟨right, ?_, spacedRight⟩
    show find [91] (34 :: (text "insns" ++ 34 :: (left ++ 91 :: right))) = _
    simpa only [List.cons_append, List.append_assoc] using found
  by_cases same : policy = text "insns"
  · subst same
    obtain ⟨rest, found, remaining⟩ := @find_spaced
      [.plain (text "\x7b"), .quoted (text "format_version"),
        .plain (text ":"), .quoted (text "tisc-json-v1"), .plain (text ","),
        .quoted (text "axion_policy_text"), .plain (text ":")] _ input _
      key_insns (by decide) spaced
    obtain ⟨right, opened, spacedRight⟩ := @finish
      [.plain (text ","), .quoted (text "insns"), .plain (text ":")] rest
      (by decide) remaining
    exact ⟨_, right, found, opened, spacedRight⟩
  · have avoids : ∀ token ∈ [Token.plain (text "\x7b"),
        .quoted (text "format_version"), .plain (text ":"),
        .quoted (text "tisc-json-v1"), .plain (text ","),
        .quoted (text "axion_policy_text"), .plain (text ":")]
        ++ [.quoted policy, .plain (text ",")],
        token.Avoids (text "insns") := by
      refine List.forall_mem_append.mpr ⟨by decide, ?_⟩
      refine List.forall_mem_cons.mpr ⟨⟨free, same⟩, ?_⟩
      decide
    obtain ⟨rest, found, remaining⟩ := @find_spaced _ _ input _ key_insns
      avoids spaced
    obtain ⟨right, opened, spacedRight⟩ := @finish [.plain (text ":")] rest
      (by decide) remaining
    exact ⟨_, right, found, opened, spacedRight⟩

/-- The body of the array has no brackets. -/
theorem bodyTokens_free {byte : UInt8} (bracket : byte = 91 ∨ byte = 93)
    (spelled : List Spelled) :
    ∀ token ∈ bodyTokens spelled, byte ∉ token.text := by
  have object : ∀ other : Spelled, ∀ token ∈ objectTokens other,
      byte ∉ token.text := by
    intro other
    have members := @memberTokens_free other byte
      (by rcases bracket with rfl | rfl <;> simp)
    refine List.forall_mem_cons.mpr ⟨?_, List.forall_mem_append.mpr
      ⟨members, List.forall_mem_singleton.mpr ?_⟩⟩
    · rcases bracket with rfl | rfl <;> decide
    · rcases bracket with rfl | rfl <;> decide
  cases spelled with
  | nil => simp [bodyTokens]
  | cons first others =>
      refine List.forall_mem_append.mpr ⟨object first, ?_⟩
      intro token member
      obtain ⟨other, _, inside⟩ := List.mem_flatMap.mp member
      rcases List.mem_cons.mp inside with rfl | inObject
      · rcases bracket with rfl | rfl <;> decide
      · exact object other token inObject

/-- Every rendering of a program with instructions as a document loads as the
program. -/
theorem loadTiscJsonV1_rendered {program : Program} {input : Text}
    (plain : PlainPolicy program.axionPolicyText)
    (nonempty : program.insns ≠ [])
    (renders : RendersTiscJsonV1 program input) :
    loadTiscJsonV1 input =
      .ok { ok := true, format := .tiscJsonV1, program, error := [] } := by
  obtain ⟨spelled, same, spaced⟩ := renders
  have free : 34 ∉ program.axionPolicyText := by
    intro quote
    have visible := (plain.plain 34 quote).2.2.1
    cases visible
  have policy := @parseStringField_spaced
    [.plain (text "\x7b"), .quoted (text "format_version"),
      .plain (text ":"), .quoted (text "tisc-json-v1"), .plain (text ",")]
    _ input (text "axion_policy_text") program.axionPolicyText (by decide)
    (by decide) free spaced
  obtain ⟨start, rest, key, array, spacedRest⟩ := find_array free spaced
  obtain ⟨body, tail, rfl, bodyFree, spacedBody, _⟩ :=
    spacedRest.splitAt rfl (bodyTokens_free (.inr rfl) spelled)
  have noOpening : 91 ∉ body :=
    spacedBody.free rfl (bodyTokens_free (.inl rfl) spelled)
  obtain ⟨front, whole, leftmost⟩ := find_eq_some_iff.mp key
  have opened : find [91] start = some (91 :: (body ++ 93 :: tail)) := array
  obtain ⟨skipped, later, split, skippedFree, equal⟩ :=
    find_one_eq_some_iff.mp opened
  obtain ⟨_, rfl⟩ := List.cons_eq_cons.mp equal
  have arrayBody : ArrayBody input body := by
    refine ⟨front, start, skipped, tail, whole, leftmost, ?_, skippedFree,
      closes_pair (by decide) noOpening bodyFree⟩
    rw [split]
    simp
  have objects : Objects body program.insns := by
    cases spelled with
    | nil => exact absurd same.symm nonempty
    | cons first others =>
        have noBrace : ∀ token ∈ ([] : List Token), 123 ∉ token.text := by simp
        rw [← same]
        exact objects_rendered noBrace spacedBody
  obtain ⟨loaded, loads, insns, policyText⟩ :=
    loadTiscJsonV1_of_fragments ⟨body, arrayBody, objects, nonempty⟩
      program.fits
  rw [policy] at policyText
  rw [loads, Program.eq_of_parts insns policyText]

end T81VM.ProgramIo
