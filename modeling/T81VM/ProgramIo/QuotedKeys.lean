import T81VM.ProgramIo.JsonGrammar
import T81VM.ProgramIo.TiscJsonV1

/-!
# Quoted keys

Where a quoted key occurs in a document whose strings may hold escaped
quotes: only at the end of a string.  The searches of the loader are read off
the tokens with that.
-/

namespace T81VM.ProgramIo

open Scan

/-! ## Occurrences -/

/-- The string is the key, or ends in an escaped quote and the key. -/
def Ends (key word : Text) : Prop :=
  word = key ∨ ∃ front, word = front ++ 34 :: key

/-- The quotes in a string are escaped; other tokens are visible and have no
quotes and no key bytes. -/
def Token.Regular : Token → Prop
  | .quoted word => ∀ front later, word = front ++ 34 :: later →
      front.getLast? = some 92
  | .plain word => word ≠ [] ∧ ∀ byte ∈ word,
      byte ≠ 34 ∧ keyByte byte = false ∧ isSpace byte = false

variable {key word front later rest input blank : Text}
  {tokens before after : List Token} {token : Token}

/-- A quoted key that starts inside a string ends with it. -/
theorem Key.eq_of_quote (isKey : Key key)
    (escaped : ∀ left right, word = left ++ 34 :: right →
      left.getLast? = some 92)
    (same : key ++ 34 :: later = word ++ 34 :: rest) :
    word = key ∧ later = rest := by
  rcases List.append_eq_append_iff.mp same with
    ⟨more, split, quote⟩ | ⟨more, split, quote⟩
  · cases more with
    | nil =>
        rw [List.append_nil] at split
        obtain ⟨_, remaining⟩ := List.cons_eq_cons.mp quote
        exact ⟨split, remaining⟩
    | cons first more =>
        obtain ⟨rfl, _⟩ := List.cons_eq_cons.mp quote
        have backslash := List.mem_of_getLast? (escaped key more split)
        have inside := isKey.2 92 backslash
        cases inside
  · cases more with
    | nil =>
        rw [List.append_nil] at split
        obtain ⟨_, remaining⟩ := List.cons_eq_cons.mp quote
        exact ⟨split.symm, remaining.symm⟩
    | cons first more =>
        obtain ⟨rfl, _⟩ := List.cons_eq_cons.mp quote
        exact absurd (split ▸ List.mem_append_right _ List.mem_cons_self)
          isKey.quote_free

/-- Between two strings there is no key. -/
theorem Spaced.ne_key (isKey : Key key)
    (regular : ∀ token ∈ tokens, token.Regular)
    (spaced : Spaced tokens input) : input ≠ key ++ 34 :: later := by
  obtain ⟨first, others, rfl⟩ := List.exists_cons_of_ne_nil isKey.1
  have letter : keyByte first = true := isKey.2 first List.mem_cons_self
  intro same
  have outside : ∀ byte, keyByte byte = false → byte ≠ first := by
    rintro byte noLetter rfl
    rw [letter] at noLetter
    cases noLetter
  have noSpace : isSpace first = false := by
    by_contra space
    rw [Bool.not_eq_false] at space
    exact outside first (not_keyByte_of_isSpace first space).2 rfl
  cases spaced with
  | done spaces =>
      have space := spaces first (by simp [same])
      rw [noSpace] at space
      cases space
  | @next blank rest token tokens spaces spacedRest =>
      cases blank with
      | cons byte blank =>
          obtain ⟨rfl, _⟩ := List.cons_eq_cons.mp same
          have space := spaces byte List.mem_cons_self
          rw [noSpace] at space
          cases space
      | nil =>
          have visible := regular token List.mem_cons_self
          cases token with
          | quoted word =>
              obtain ⟨quote, _⟩ := List.cons_eq_cons.mp same
              exact outside 34 rfl quote
          | plain word =>
              obtain ⟨nonempty, bytes⟩ := visible
              obtain ⟨byte, word, rfl⟩ := List.exists_cons_of_ne_nil nonempty
              obtain ⟨head, _⟩ := List.cons_eq_cons.mp same
              exact outside byte (bytes byte List.mem_cons_self).2.1 head

/-- Every occurrence of a quoted key is the end of a string. -/
theorem Spaced.occurrence (isKey : Key key)
    (regular : ∀ token ∈ tokens, token.Regular)
    (spaced : Spaced tokens (front ++ 34 :: (key ++ 34 :: later))) :
    ∃ before word after left more,
      tokens = before ++ .quoted word :: after ∧ Ends key word ∧
      Spaced after later ∧ front = left ++ more ∧ Spaced before left := by
  have empty : Spaced [] [] := .done (by simp [Blank])
  generalize whole : front ++ 34 :: (key ++ 34 :: later) = input at spaced
  induction spaced generalizing front with
  | done spaces =>
      have space := spaces 34 (by simp [← whole])
      cases space
  | @next blank rest token tokens spaces spacedRest induction =>
      have others : ∀ token ∈ tokens, token.Regular := fun token member =>
        regular token (List.mem_cons_of_mem _ member)
      have here := regular token List.mem_cons_self
      have blankFree : 34 ∉ blank := by
        intro quote
        have space := spaces 34 quote
        cases space
      obtain ⟨more, rfl, remaining⟩ := append_of_marked blankFree whole
      -- The occurrence is behind this token, as in the rest of the text.
      have behind : ∀ {last}, more = token.text ++ last →
          last ++ 34 :: (key ++ 34 :: later) = rest →
          ∃ before word after left more',
            token :: tokens = before ++ .quoted word :: after ∧
            Ends key word ∧ Spaced after later ∧
            blank ++ more = left ++ more' ∧ Spaced before left := by
        intro last split inRest
        obtain ⟨before, word, after, left, more', same, ends, spacedAfter,
          within, spacedBefore⟩ := induction others inRest
        refine ⟨token :: before, word, after, blank ++ (token.text ++ left),
          more', ?_, ends, spacedAfter, ?_, .next spaces spacedBefore⟩
        · rw [same, List.cons_append]
        · rw [split, within]
          simp
      cases token with
      | plain word =>
          have wordFree : 34 ∉ word := fun quote => (here.2 34 quote).1 rfl
          obtain ⟨last, split, inRest⟩ := append_of_marked wordFree remaining
          exact behind split inRest
      | quoted word =>
          have text : (Token.quoted word).text ++ rest =
              34 :: (word ++ 34 :: rest) := by simp [Token.text, text_quote]
          have found : ∀ {suffix}, Ends key suffix → word = suffix →
              later = rest → ∃ before word' after left more',
                Token.quoted word :: tokens = before ++ .quoted word' :: after ∧
                Ends key word' ∧ Spaced after later ∧
                blank ++ more = left ++ more' ∧ Spaced before left := by
            intro suffix ends same equal
            exact ⟨[], word, tokens, [], blank ++ more, rfl, same ▸ ends,
              equal ▸ spacedRest, rfl, empty⟩
          rw [text] at remaining
          cases more with
          | nil =>
              obtain ⟨_, inside⟩ := List.cons_eq_cons.mp remaining
              obtain ⟨same, equal⟩ := isKey.eq_of_quote here inside
              exact found (.inl rfl) same equal
          | cons first last =>
              obtain ⟨rfl, inside⟩ := List.cons_eq_cons.mp remaining
              rcases List.append_eq_append_iff.mp inside with
                ⟨suffix, split, quote⟩ | ⟨suffix, split, quote⟩
              · cases suffix with
                | nil =>
                    obtain ⟨_, gap⟩ := List.cons_eq_cons.mp quote
                    exact absurd gap.symm (spacedRest.ne_key isKey others)
                | cons second suffix =>
                    obtain ⟨rfl, ending⟩ := List.cons_eq_cons.mp quote
                    obtain ⟨same, equal⟩ := isKey.eq_of_quote (by
                      intro left right divided
                      have backslash := here (last ++ 34 :: left) right (by
                        rw [split, divided]
                        simp)
                      cases left with
                      | nil => simp at backslash
                      | cons byte left => simpa using backslash) ending
                    exact found (.inr ⟨last, rfl⟩) (same ▸ split) equal
              · cases suffix with
                | nil =>
                    obtain ⟨_, gap⟩ := List.cons_eq_cons.mp quote
                    exact absurd gap (spacedRest.ne_key isKey others)
                | cons second suffix =>
                    obtain ⟨rfl, inRest⟩ := List.cons_eq_cons.mp quote
                    apply behind _ inRest.symm
                    rw [split]
                    simp [Token.text, text_quote]

/-- A string that ends with the key is an occurrence. -/
theorem Spaced.occurs (ends : Ends key word)
    (spaced : Spaced (before ++ .quoted word :: after) input) :
    ∃ front later, input = front ++ 34 :: (key ++ 34 :: later) ∧
      Spaced after later := by
  obtain ⟨left, right, rfl, _, spacedRight⟩ := spaced.split
  obtain ⟨blank, later, _, rfl, spacedAfter⟩ := Spaced.cons_iff.mp spacedRight
  rcases ends with same | ⟨front, same⟩
  · refine ⟨left ++ blank, later, ?_, spacedAfter⟩
    simp [Token.text, text_quote, same]
  · refine ⟨left ++ (blank ++ 34 :: front), later, ?_, spacedAfter⟩
    simp [Token.text, text_quote, same]

/-- The first occurrence of a quoted key is the end of the first string that
ends with it. -/
theorem Spaced.first_occurrence {here : Text} (isKey : Key key)
    (regular : ∀ token ∈ tokens, token.Regular)
    (first : First (34 :: (key ++ [34]) <+: ·) front here)
    (spaced : Spaced tokens (front ++ here)) :
    ∃ before word after later, tokens = before ++ .quoted word :: after ∧
      Ends key word ∧ (∀ other, .quoted other ∈ before → ¬ Ends key other) ∧
      here = 34 :: (key ++ 34 :: later) ∧ Spaced after later := by
  obtain ⟨later, rfl⟩ := first.found
  have shape : 34 :: (key ++ [34]) ++ later = 34 :: (key ++ 34 :: later) := by
    simp
  rw [shape] at spaced
  obtain ⟨before, word, after, left, more, same, ends, spacedAfter, within,
    spacedBefore⟩ := spaced.occurrence isKey regular
  refine ⟨before, word, after, later, same, ends, ?_, shape, spacedAfter⟩
  -- A string before this one would be an earlier occurrence.
  intro other member endsOther
  obtain ⟨start, between, split⟩ := List.append_of_mem member
  rw [split] at spacedBefore
  obtain ⟨earlier, others, inLeft, _⟩ := spacedBefore.occurs endsOther
  refine absurd ?_ (first.earlier earlier
    (34 :: (key ++ 34 :: (others ++ more)) ++ (34 :: (key ++ [34])
      ++ later)) ?_ ?_)
  · exact ⟨others ++ more ++ (34 :: (key ++ [34]) ++ later), by simp⟩
  · rw [within, inLeft]
    simp
  · rw [within, inLeft]
    simp

/-- The search for a quoted key finds the first string that ends with it. -/
theorem Spaced.find_first (isKey : Key key)
    (regular : ∀ token ∈ before ++ .quoted word :: after, token.Regular)
    (ends : Ends key word)
    (none : ∀ other, .quoted other ∈ before → ¬ Ends key other)
    (spaced : Spaced (before ++ .quoted word :: after) input) :
    ∃ front later, input = front ++ 34 :: (key ++ 34 :: later) ∧
      First (34 :: (key ++ [34]) <+: ·) front (34 :: (key ++ 34 :: later)) ∧
      Spaced after later := by
  obtain ⟨somewhere, rest, whole, _⟩ := spaced.occurs ends
  obtain ⟨front, here, split, first⟩ :=
    @First.exists _ (34 :: (key ++ [34]) <+: ·) somewhere
      (34 :: (key ++ 34 :: rest)) ⟨rest, by simp⟩
  rw [← whole] at split
  rw [split] at spaced
  obtain ⟨before', word', after', later, same, ends', none', rfl,
    spacedAfter⟩ := spaced.first_occurrence isKey regular first
  refine ⟨front, later, split, first, ?_⟩
  -- Both are the first string that ends with the key.
  rcases List.append_eq_append_iff.mp same with
    ⟨between, longer, equal⟩ | ⟨between, shorter, equal⟩
  · cases between with
    | nil =>
        obtain ⟨_, rfl⟩ := List.cons_eq_cons.mp equal
        exact spacedAfter
    | cons token between =>
        obtain ⟨rfl, _⟩ := List.cons_eq_cons.mp equal
        refine absurd ends (none' word ?_)
        rw [longer]
        simp
  · cases between with
    | nil =>
        obtain ⟨_, rfl⟩ := List.cons_eq_cons.mp equal
        exact spacedAfter
    | cons token between =>
        obtain ⟨rfl, _⟩ := List.cons_eq_cons.mp equal
        refine absurd ends' (none word' ?_)
        rw [shorter]
        simp

/-- A visible byte is the first byte of the next token. -/
theorem Spaced.next_visible {byte : UInt8} {rest : Text}
    (regular : ∀ token ∈ tokens, token.Regular) (spaces : Blank blank)
    (visible : isSpace byte = false)
    (spaced : Spaced tokens (blank ++ byte :: rest)) :
    ∃ token others later, tokens = token :: others ∧
      token.text ++ later = byte :: rest ∧ Spaced others later := by
  generalize whole : blank ++ byte :: rest = input at spaced
  cases spaced with
  | done others =>
      have space := others byte (by simp [← whole])
      rw [visible] at space
      cases space
  | @next gap later token tokens gapBlank spacedLater =>
      have head : ∀ first ∈ token.text.head?, isSpace first = false := by
        have here := regular token List.mem_cons_self
        cases token with
        | quoted word =>
            intro first isFirst
            cases isFirst
            rfl
        | plain word =>
            intro first isFirst
            exact (here.2 first (List.mem_of_head? isFirst)).2.2
      have nonempty : token.text ≠ [] := by
        have here := regular token List.mem_cons_self
        cases token with
        | quoted word => exact List.cons_ne_nil _ _
        | plain word => exact here.1
      obtain ⟨first, others, shape⟩ := List.exists_cons_of_ne_nil nonempty
      refine ⟨token, tokens, later, rfl, ?_, spacedLater⟩
      rcases List.append_eq_append_iff.mp whole with
        ⟨more, split, equal⟩ | ⟨more, split, equal⟩
      · cases more with
        | nil => exact equal.symm
        | cons second more =>
            obtain ⟨rfl, _⟩ := List.cons_eq_cons.mp equal
            have space := gapBlank byte (by rw [split]; simp)
            rw [visible] at space
            cases space
      · cases more with
        | nil => exact equal
        | cons second more =>
            rw [shape] at equal
            obtain ⟨rfl, _⟩ := List.cons_eq_cons.mp equal
            have space := spaces first (by rw [split]; simp)
            rw [head first (by rw [shape]; rfl)] at space
            cases space

/-! ## JSON tokens -/

def ofJson : Json.Token → Token
  | .mark byte => .plain [byte]
  | .string content => .quoted (Json.raw content)
  | .literal word => .plain word

/-- The bytes of punctuation. -/
def isMark (byte : UInt8) : Bool :=
  byte == 44 || byte == 58 || byte == 91 || byte == 93 || byte == 123 ||
    byte == 125

/-- Punctuation, any string, or an integer. -/
def Numeric : Json.Token → Prop
  | .mark byte => isMark byte = true
  | .string _ => True
  | .literal word => ∃ value, Json.Integer word value

theorem isMark_plain (byte : UInt8) : isMark byte = true →
    byte ≠ 34 ∧ keyByte byte = false ∧ isSpace byte = false ∧
      Decimal.isDigit byte = false := by
  grind [isMark, Decimal.isDigit]

/-- Integers are digits, after a minus sign or not. -/
theorem integer_signedDigits {word : Text} {value : Int}
    (integer : Json.Integer word value) :
    ∃ negative digits, word = signedDigits negative digits ∧ digits ≠ [] ∧
      (∀ byte ∈ digits, Decimal.isDigit byte = true) ∧
      value = if negative then -(Decimal.value digits : Int)
        else Decimal.value digits := by
  have decimal : ∀ {digits}, Json.Whole digits → digits ≠ [] ∧
      ∀ byte ∈ digits, Decimal.isDigit byte = true := by
    intro digits whole
    cases whole with
    | zero => decide
    | digits leading nonzero others =>
        exact ⟨List.cons_ne_nil _ _, List.forall_mem_cons.mpr
          ⟨leading, others⟩⟩
  cases integer with
  | positive whole =>
      exact ⟨false, _, rfl, (decimal whole).1, (decimal whole).2, rfl⟩
  | negative whole =>
      exact ⟨true, _, rfl, (decimal whole).1, (decimal whole).2, rfl⟩

theorem signedDigits_numberByte {negative : Bool} {digits : Text}
    (decimal : ∀ byte ∈ digits, Decimal.isDigit byte = true) :
    ∀ byte ∈ signedDigits negative digits, numberByte byte = true := by
  intro byte member
  rcases List.mem_append.mp member with sign | digit
  · cases negative with
    | true =>
        rw [if_pos rfl, List.mem_singleton] at sign
        rw [sign]
        rfl
    | false => cases sign
  · rw [numberByte, decimal byte digit, Bool.true_or]

theorem Numeric.regular {token : Json.Token} (numeric : Numeric token) :
    (ofJson token).Regular := by
  cases token with
  | mark byte =>
      obtain ⟨noQuote, noLetter, visible, _⟩ := isMark_plain byte numeric
      refine ⟨List.cons_ne_nil _ _, ?_⟩
      intro other member
      rw [List.mem_singleton.mp member]
      exact ⟨noQuote, noLetter, visible⟩
  | string content =>
      intro front later split
      exact Json.backslash_of_quote split
  | literal word =>
      obtain ⟨value, integer⟩ := numeric
      obtain ⟨negative, digits, rfl, nonempty, decimal, _⟩ :=
        integer_signedDigits integer
      constructor
      · intro empty
        exact nonempty (List.append_eq_nil_iff.mp empty).2
      · intro byte member
        have number := signedDigits_numberByte decimal byte member
        obtain ⟨_, noQuote, noLetter⟩ := numberByte_plain byte number
        exact ⟨noQuote, noLetter, not_isSpace_of_numberByte byte number⟩

theorem regular_map {tokens : List Json.Token}
    (numeric : ∀ token ∈ tokens, Numeric token) :
    ∀ token ∈ tokens.map ofJson, token.Regular := by
  intro token member
  obtain ⟨original, inside, rfl⟩ := List.mem_map.mp member
  exact (numeric original inside).regular

theorem Spaced.ofJson {tokens : List Json.Token} {input : Text}
    (spaced : Json.Spaced tokens input) :
    Spaced (tokens.map ofJson) input := by
  have blank : ∀ {gap : Text}, (∀ byte ∈ gap, Json.isSpace byte = true) →
      Blank gap := by
    intro gap spaces byte member
    have space := spaces byte member
    grind [Json.isSpace]
  induction spaced with
  | done spaces => exact .done (blank spaces)
  | @next gap rest token tokens spaces later induction =>
      have same : token.text = (ProgramIo.ofJson token).text := by
        cases token with
        | mark byte => rfl
        | string content => simp [Json.Token.text, ProgramIo.ofJson, Token.text,
            text_quote]
        | literal word => rfl
      rw [same]
      exact .next (blank spaces) induction

/-! ## Fields of tokens -/

/-- Somewhere in the tokens stands the name, a colon and the value, before
these other tokens. -/
inductive FieldIn (name : List Json.Part) (value : Json.Token)
    (after : List Json.Token) : List Json.Token → Prop where
  | here : FieldIn name value after (.string name :: .mark 58 :: value :: after)
  | later {token : Json.Token} {tokens : List Json.Token}
      (field : FieldIn name value after tokens) :
      FieldIn name value after (token :: tokens)

section Fields

variable {name content : List Json.Part} {value token : Json.Token}
  {tokens before after : List Json.Token} {here word : Text}

theorem fieldIn_iff : FieldIn name value after tokens ↔
    ∃ before, tokens = before ++ .string name :: .mark 58 :: value :: after := by
  constructor
  · intro field
    induction field with
    | here => exact ⟨[], rfl⟩
    | @later token tokens _ induction =>
        obtain ⟨before, rfl⟩ := induction
        exact ⟨token :: before, rfl⟩
  · intro ⟨before, whole⟩
    subst whole
    induction before with
    | nil => exact .here
    | cons token before induction => exact .later induction

/-- The next JSON token of a text with a visible byte. -/
theorem Spaced.next_json {byte : UInt8} {rest : Text}
    (numeric : ∀ token ∈ tokens, Numeric token) (spaces : Blank blank)
    (visible : isSpace byte = false)
    (spaced : Spaced (tokens.map ProgramIo.ofJson) (blank ++ byte :: rest)) :
    ∃ token others later, tokens = token :: others ∧
      (ProgramIo.ofJson token).text ++ later = byte :: rest ∧
      Spaced (others.map ProgramIo.ofJson) later := by
  obtain ⟨mapped, mappedOthers, later, same, text, spacedLater⟩ :=
    spaced.next_visible (regular_map numeric) spaces visible
  obtain ⟨token, others, rfl, rfl, rfl⟩ := List.map_eq_cons_iff.mp same
  exact ⟨token, others, later, rfl, text, spacedLater⟩

/-- The string of a quoted text. -/
theorem exists_string {mapped mappedAfter : List Token}
    (same : tokens.map ProgramIo.ofJson = mapped ++ .quoted word ::
      mappedAfter) :
    ∃ before content after, tokens = before ++ .string content :: after ∧
      before.map ProgramIo.ofJson = mapped ∧ Json.raw content = word ∧
      after.map ProgramIo.ofJson = mappedAfter := by
  obtain ⟨before, others, rfl, isBefore, isOthers⟩ :=
    List.map_eq_append_iff.mp same
  obtain ⟨string, after, rfl, isString, isAfter⟩ :=
    List.map_eq_cons_iff.mp isOthers
  cases string with
  | mark byte => cases isString
  | literal word => cases isString
  | string content =>
      cases isString
      exact ⟨before, content, after, rfl, isBefore, rfl, isAfter⟩

/-- A quoted key before a colon is the name of a field. -/
theorem Spaced.occurrence_json (isKey : Key key)
    (numeric : ∀ token ∈ tokens, Numeric token) (spaces : Blank blank)
    (spaced : Spaced (tokens.map ProgramIo.ofJson)
      (front ++ 34 :: (key ++ 34 :: (blank ++ 58 :: later)))) :
    ∃ before name after, tokens = before ++ .string name :: .mark 58 :: after ∧
      Ends key (Json.raw name) ∧ Spaced (after.map ProgramIo.ofJson) later := by
  obtain ⟨mapped, word, mappedAfter, _, _, same, ends, spacedAfter, _⟩ :=
    spaced.occurrence isKey (regular_map numeric)
  obtain ⟨before, name, after, rfl, _, rfl, rfl⟩ := exists_string same
  have numericAfter : ∀ token ∈ after, Numeric token := fun token member =>
    numeric token (List.mem_append_right _ (List.mem_cons_of_mem _ member))
  obtain ⟨colon, after, last, rfl, text, spacedLast⟩ :=
    spacedAfter.next_json numericAfter spaces rfl
  have numericColon := numericAfter colon List.mem_cons_self
  have isColon : colon = .mark 58 ∧ last = later := by
    cases colon with
    | mark byte =>
        obtain ⟨rfl, rfl⟩ := List.cons_eq_cons.mp text
        exact ⟨rfl, rfl⟩
    | string content =>
        obtain ⟨quote, _⟩ := List.cons_eq_cons.mp text
        cases quote
    | literal word =>
        obtain ⟨nonempty, bytes⟩ := numericColon.regular
        obtain ⟨first, others, rfl⟩ := List.exists_cons_of_ne_nil nonempty
        obtain ⟨rfl, _⟩ := List.cons_eq_cons.mp text
        obtain ⟨value, integer⟩ := numericColon
        obtain ⟨negative, digits, split, _, decimal, _⟩ :=
          integer_signedDigits integer
        have number := signedDigits_numberByte decimal 58
          (split ▸ List.mem_cons_self)
        cases number
  obtain ⟨rfl, rfl⟩ := isColon
  exact ⟨before, name, after, rfl, ends, spacedLast⟩

/-- A key and a value in quotes are a field with a string. -/
theorem StringAt.fieldIn {value : Text} (isKey : Key key)
    (numeric : ∀ token ∈ tokens, Numeric token)
    (spaced : Spaced (tokens.map ProgramIo.ofJson) (front ++ here))
    (stands : StringAt key here value) :
    ∃ name content after, FieldIn name (.string content) after tokens ∧
      Ends key (Json.raw name) ∧
      value = (Json.raw content).takeWhile fun byte => byte != 34 := by
  obtain ⟨left, right, later, leftBlank, rightBlank, free, rfl⟩ := stands
  obtain ⟨before, name, others, rfl, ends, spacedOthers⟩ :=
    spaced.occurrence_json isKey numeric leftBlank
  have numericOthers : ∀ token ∈ others, Numeric token := by
    intro token member
    apply numeric token
    simp [member]
  obtain ⟨token, after, last, rfl, text, _⟩ :=
    spacedOthers.next_json numericOthers rightBlank rfl
  have numericToken := numericOthers token List.mem_cons_self
  cases token with
  | mark byte =>
      obtain ⟨rfl, _⟩ := List.cons_eq_cons.mp text
      cases numericToken
  | literal word =>
      have regular := numericToken.regular
      obtain ⟨first, others, rfl⟩ := List.exists_cons_of_ne_nil regular.1
      obtain ⟨same, _⟩ := List.cons_eq_cons.mp text
      exact absurd same (regular.2 first List.mem_cons_self).1
  | string content =>
      refine ⟨name, content, after, fieldIn_iff.mpr ⟨before, rfl⟩, ends, ?_⟩
      have inside : Json.raw content ++ 34 :: last = value ++ 34 :: later := by
        have shape : (ProgramIo.ofJson (.string content)).text ++ last =
            34 :: (Json.raw content ++ 34 :: last) := by
          simp [ProgramIo.ofJson, Token.text, text_quote]
        rw [shape] at text
        exact (List.cons_eq_cons.mp text).2
      have visible : ∀ byte ∈ value, (byte != 34) = true := by
        intro byte member
        rw [bne_iff_ne]
        rintro rfl
        exact free member
      have cut : ∀ start rest : Text,
          (start ++ 34 :: rest).takeWhile (fun byte => byte != 34) =
            start.takeWhile fun byte => byte != 34 := by
        intro start rest
        rw [List.takeWhile_append]
        split
        · rename_i whole
          rw [(List.takeWhile_prefix _).eq_of_length whole]
          simp
        · rfl
      calc
        value = (value ++ 34 :: later).takeWhile (fun byte => byte != 34) := by
          rw [cut, List.takeWhile_eq_self_iff.mpr visible]
        _ = _ := by rw [← inside, cut]

/-- A field with a string is found. -/
theorem FieldIn.exists_stringField
    (field : FieldIn name (.string content) after tokens)
    (ends : Ends key (Json.raw name))
    (spaced : Spaced (tokens.map ProgramIo.ofJson) input) :
    ∃ value, StringField input key value := by
  obtain ⟨before, rfl⟩ := fieldIn_iff.mp field
  rw [List.map_append, List.map_cons] at spaced
  obtain ⟨front, later, rfl, spacedLater⟩ := spaced.occurs ends
  obtain ⟨left, rest, leftBlank, rfl, spacedRest⟩ :=
    Spaced.cons_iff.mp spacedLater
  obtain ⟨right, last, rightBlank, rfl, _⟩ := Spaced.cons_iff.mp spacedRest
  obtain ⟨value, others, split, free⟩ :=
    @List.eq_append_cons_of_mem _ 34 (Json.raw content ++ 34 :: last)
      (by simp)
  have stands : StringAt key (34 :: (key ++ 34 :: (left
      ++ ((ProgramIo.ofJson (.mark 58)).text ++ (right
        ++ ((ProgramIo.ofJson (.string content)).text ++ last)))))) value := by
    refine ⟨left, right, others, leftBlank, rightBlank, free, ?_⟩
    rw [fieldText, ← split]
    simp [ProgramIo.ofJson, Token.text, text_quote]
  obtain ⟨start, here, whole, first⟩ := @First.exists _
    (fun rest => ∃ other, StringAt key rest other) front _ ⟨value, stands⟩
  obtain ⟨other, found⟩ := first.found
  exact ⟨other, start, here, whole, first, found⟩

/-- The string that is read is the one field with the key, up to the first
quote. -/
theorem stringField_iff_fieldIn {value : Text} (isKey : Key key)
    (numeric : ∀ token ∈ tokens, Numeric token)
    (unique : ∀ {name other content otherContent behind otherBehind},
      FieldIn name (.string content) behind tokens →
      Ends key (Json.raw name) →
      FieldIn other (.string otherContent) otherBehind tokens →
      Ends key (Json.raw other) → content = otherContent)
    (spaced : Spaced (tokens.map ProgramIo.ofJson) input) :
    StringField input key value ↔
      ∃ name content behind, FieldIn name (.string content) behind tokens ∧
        Ends key (Json.raw name) ∧
        value = (Json.raw content).takeWhile fun byte => byte != 34 := by
  have found : ∀ {other : Text}, StringField input key other →
      ∃ name content behind, FieldIn name (.string content) behind tokens ∧
        Ends key (Json.raw name) ∧
        other = (Json.raw content).takeWhile fun byte => byte != 34 := by
    intro other stringField
    obtain ⟨front, here, whole, _, stands⟩ := stringField
    rw [whole] at spaced
    exact stands.fieldIn isKey numeric spaced
  constructor
  · exact found
  · intro field
    obtain ⟨name, content, behind, field, ends, read⟩ := field
    obtain ⟨other, stringField⟩ := field.exists_stringField ends spaced
    obtain ⟨_, otherContent, _, otherField, otherEnds, otherRead⟩ :=
      found stringField
    rw [read, unique field ends otherField otherEnds, ← otherRead]
    exact stringField

/-- The sign and the digits of an integer can be read off its text. -/
theorem signedDigits_injective {left right : Bool} {one other : Text}
    {rest later : Text} (nonempty : one ≠ []) (otherNonempty : other ≠ [])
    (decimal : ∀ byte ∈ one, Decimal.isDigit byte = true)
    (otherDecimal : ∀ byte ∈ other, Decimal.isDigit byte = true)
    (stops : ∀ byte ∈ rest.head?, Decimal.isDigit byte = false)
    (otherStops : ∀ byte ∈ later.head?, Decimal.isDigit byte = false)
    (same : signedDigits left one ++ rest = signedDigits right other ++ later) :
    left = right ∧ one = other := by
  have digits : ∀ {run ending : Text},
      (∀ byte ∈ run, Decimal.isDigit byte = true) →
      (∀ byte ∈ ending.head?, Decimal.isDigit byte = false) →
      (run ++ ending).takeWhile Decimal.isDigit = run := by
    intro run ending inside ends
    rw [List.takeWhile_append_of_pos inside]
    cases ending with
    | nil => simp
    | cons byte bytes =>
        rw [List.takeWhile_cons_of_neg (by simp [ends byte rfl]),
          List.append_nil]
  have noSign : ∀ {run ending : Text}, run ≠ [] →
      (∀ byte ∈ run, Decimal.isDigit byte = true) →
      ∀ bytes : Text, run ++ ending ≠ 45 :: bytes := by
    intro run ending filled inside bytes equal
    obtain ⟨first, others, rfl⟩ := List.exists_cons_of_ne_nil filled
    obtain ⟨rfl, _⟩ := List.cons_eq_cons.mp equal
    have digit := inside 45 List.mem_cons_self
    cases digit
  have runs : ∀ {start : Text},
      one ++ rest = start → other ++ later = start → one = other := by
    intro start first second
    rw [← digits decimal stops, first, ← second, digits otherDecimal otherStops]
  cases left with
  | true =>
      cases right with
      | true =>
          obtain ⟨_, inside⟩ := List.cons_eq_cons.mp same
          exact ⟨rfl, runs inside rfl⟩
      | false => exact absurd same.symm (noSign otherNonempty otherDecimal _)
  | false =>
      cases right with
      | true => exact absurd same (noSign nonempty decimal _)
      | false => exact ⟨rfl, runs same rfl⟩

/-- No digit follows a token before punctuation. -/
theorem Spaced.stops {byte : UInt8} (mark : isMark byte = true)
    (spaced : Spaced ((.mark byte :: after).map ProgramIo.ofJson) input) :
    ∀ other ∈ input.head?, Decimal.isDigit other = false := by
  obtain ⟨blank, rest, spaces, rfl, _⟩ := Spaced.cons_iff.mp spaced
  cases blank with
  | nil =>
      intro other head
      cases head
      exact (isMark_plain byte mark).2.2.2
  | cons space blank =>
      intro other head
      cases head
      exact not_isDigit_of_isSpace space (spaces space List.mem_cons_self)

/-- A key and an integer are a field with that literal, if punctuation
follows. -/
theorem IntAt.fieldIn {negative : Bool} {digits : Text} (isKey : Key key)
    (numeric : ∀ token ∈ tokens, Numeric token)
    (spaced : Spaced (tokens.map ProgramIo.ofJson) (front ++ here))
    (stands : IntAt key here negative digits) :
    ∃ name word after, FieldIn name (.literal word) after tokens ∧
      Ends key (Json.raw name) ∧
      ∀ byte others, after = .mark byte :: others →
        word = signedDigits negative digits := by
  obtain ⟨left, right, later, leftBlank, rightBlank, nonempty, decimal, ends,
    rfl⟩ := stands
  obtain ⟨before, name, others, rfl, isEnd, spacedOthers⟩ :=
    spaced.occurrence_json isKey numeric leftBlank
  have numericOthers : ∀ token ∈ others, Numeric token := by
    intro token member
    apply numeric token
    simp [member]
  obtain ⟨first, rest, shape⟩ : ∃ first rest,
      signedDigits negative digits = first :: rest := by
    apply List.exists_cons_of_ne_nil
    intro empty
    exact nonempty (List.append_eq_nil_iff.mp empty).2
  have number := signedDigits_numberByte decimal first
    (shape ▸ List.mem_cons_self)
  rw [shape] at spacedOthers
  obtain ⟨token, after, last, rfl, text, spacedAfter⟩ :=
    spacedOthers.next_json numericOthers rightBlank
      (not_isSpace_of_numberByte first number)
  have numericToken := numericOthers token List.mem_cons_self
  cases token with
  | mark byte =>
      obtain ⟨rfl, _⟩ := List.cons_eq_cons.mp text
      have noNumber : ∀ byte, isMark byte = true → numberByte byte = false := by
        intro byte
        grind [isMark]
      rw [noNumber byte numericToken] at number
      cases number
  | string content =>
      obtain ⟨rfl, _⟩ := List.cons_eq_cons.mp text
      cases number
  | literal word =>
      refine ⟨name, word, after, fieldIn_iff.mpr ⟨before, rfl⟩, isEnd, ?_⟩
      intro byte others same
      subst same
      have mark : isMark byte = true := numericOthers (.mark byte) (by simp)
      obtain ⟨value, integer⟩ := numericToken
      obtain ⟨sign, run, rfl, filled, inside, _⟩ :=
        integer_signedDigits integer
      have whole : signedDigits sign run ++ last =
          signedDigits negative digits ++ later := by
        rw [shape]
        exact text
      obtain ⟨rfl, rfl⟩ := signedDigits_injective filled nonempty inside
        decimal (spacedAfter.stops mark) ends whole
      rfl

/-- A field with an integer is found. -/
theorem FieldIn.exists_intAt {byte : UInt8} {word : Text} {value : Int}
    (mark : isMark byte = true) (integer : Json.Integer word value)
    (field : FieldIn name (.literal word) (.mark byte :: after) tokens)
    (ends : Ends key (Json.raw name))
    (spaced : Spaced (tokens.map ProgramIo.ofJson) input) :
    ∃ front here, input = front ++ here ∧
      First (fun rest => ∃ sign number, IntAt key rest sign number) front
        here := by
  obtain ⟨before, rfl⟩ := fieldIn_iff.mp field
  rw [List.map_append, List.map_cons] at spaced
  obtain ⟨front, later, rfl, spacedLater⟩ := spaced.occurs ends
  obtain ⟨left, rest, leftBlank, rfl, spacedRest⟩ :=
    Spaced.cons_iff.mp spacedLater
  obtain ⟨right, last, rightBlank, rfl, spacedLast⟩ :=
    Spaced.cons_iff.mp spacedRest
  obtain ⟨negative, digits, rfl, nonempty, decimal, _⟩ :=
    integer_signedDigits integer
  have stands : IntAt key (34 :: (key ++ 34 :: (left
      ++ ((ProgramIo.ofJson (.mark 58)).text ++ (right
        ++ ((ProgramIo.ofJson
          (.literal (signedDigits negative digits))).text ++ last))))))
      negative digits :=
    ⟨left, right, last, leftBlank, rightBlank, nonempty, decimal,
      spacedLast.stops mark, rfl⟩
  exact @First.exists _ (fun rest => ∃ sign number, IntAt key rest sign number)
    front _ ⟨negative, digits, stands⟩

end Fields

end T81VM.ProgramIo
