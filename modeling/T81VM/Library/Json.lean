import Mathlib.Data.List.TakeWhile
import T81VM.Library.Decimal

/-!
# JSON texts

The grammar of JSON on the bytes of a UTF-8 text: strings with their escapes
and the texts they denote, numbers, and values as tokens with any white space
between them.
-/

namespace Json

/-! ## Strings -/

/-- The UTF-8 encoding of a code point. -/
def utf8 (code : Nat) : List UInt8 :=
  if code < 0x80 then [UInt8.ofNat code]
  else if code < 0x800 then
    [UInt8.ofNat (0xC0 + code / 0x40), UInt8.ofNat (0x80 + code % 0x40)]
  else if code < 0x10000 then
    [UInt8.ofNat (0xE0 + code / 0x1000),
      UInt8.ofNat (0x80 + code / 0x40 % 0x40),
      UInt8.ofNat (0x80 + code % 0x40)]
  else
    [UInt8.ofNat (0xF0 + code / 0x40000),
      UInt8.ofNat (0x80 + code / 0x1000 % 0x40),
      UInt8.ofNat (0x80 + code / 0x40 % 0x40),
      UInt8.ofNat (0x80 + code % 0x40)]

/-- What a short escape stands for. -/
inductive Escape where
  | quote | backslash | slash | backspace | formFeed | lineFeed
  | carriageReturn | tab
  deriving DecidableEq

/-- The letter after the backslash. -/
def Escape.letter : Escape → UInt8
  | .quote => 34 | .backslash => 92 | .slash => 47 | .backspace => 98
  | .formFeed => 102 | .lineFeed => 110 | .carriageReturn => 114 | .tab => 116

/-- The character it denotes. -/
def Escape.char : Escape → UInt8
  | .quote => 34 | .backslash => 92 | .slash => 47 | .backspace => 8
  | .formFeed => 12 | .lineFeed => 10 | .carriageReturn => 13 | .tab => 9

def isHex (byte : UInt8) : Bool :=
  (48 ≤ byte && byte ≤ 57) || (65 ≤ byte && byte ≤ 70) ||
    (97 ≤ byte && byte ≤ 102)

def hexValue (byte : UInt8) : Nat :=
  if byte ≤ 57 then byte.toNat - 48
  else if byte ≤ 70 then byte.toNat - 55
  else byte.toNat - 87

/-- The four digits of a code unit. -/
structure CodeUnit where
  digits : List UInt8
  four : digits.length = 4
  hex : ∀ byte ∈ digits, isHex byte = true

def CodeUnit.value (unit : CodeUnit) : Nat :=
  unit.digits.foldl (fun total byte => 16 * total + hexValue byte) 0

/-- One part of a string: a character, or an escape sequence. -/
inductive Part where
  | plain (char : Char)
      (allowed : 32 ≤ char.toNat ∧ char.toNat ≠ 34 ∧ char.toNat ≠ 92)
  | short (escape : Escape)
  | unicode (unit : CodeUnit)

/-- The bytes of a part between the quotes. -/
def Part.raw : Part → List UInt8
  | .plain char _ => utf8 char.toNat
  | .short escape => [92, escape.letter]
  | .unicode unit => 92 :: 117 :: unit.digits

theorem Part.raw_plain {char : Char}
    {allowed : 32 ≤ char.toNat ∧ char.toNat ≠ 34 ∧ char.toNat ≠ 92} :
    (Part.plain char allowed).raw = utf8 char.toNat := rfl

theorem Part.raw_short {escape : Escape} :
    (Part.short escape).raw = [92, escape.letter] := rfl

theorem Part.raw_unicode {unit : CodeUnit} :
    (Part.unicode unit).raw = 92 :: 117 :: unit.digits := rfl

/-- The bytes between the quotes. -/
def raw (content : List Part) : List UInt8 :=
  content.flatMap Part.raw

def isHigh (code : Nat) : Bool :=
  0xD800 ≤ code && code < 0xDC00

def isLow (code : Nat) : Bool :=
  0xDC00 ≤ code && code < 0xE000

/-- The text a string denotes.  Two surrogates in a row are one code point; a
lone one is encoded like any other. -/
def decode : List Part → List UInt8
  | [] => []
  | .plain char _ :: rest => utf8 char.toNat ++ decode rest
  | .short escape :: rest => escape.char :: decode rest
  | .unicode high :: .unicode low :: rest =>
      if isHigh high.value && isLow low.value then
        utf8 (0x10000 + (high.value - 0xD800) * 0x400 + (low.value - 0xDC00))
          ++ decode rest
      else utf8 high.value ++ decode (.unicode low :: rest)
  | .unicode unit :: rest => utf8 unit.value ++ decode rest

theorem decode_plain {char : Char}
    {allowed : 32 ≤ char.toNat ∧ char.toNat ≠ 34 ∧ char.toNat ≠ 92}
    {rest : List Part} :
    decode (.plain char allowed :: rest) = utf8 char.toNat ++ decode rest :=
  rfl

/-- A part that is no escape sequence. -/
def Part.isPlain : Part → Bool
  | .plain _ _ => true
  | .short _ | .unicode _ => false

/-- No escape sequences. -/
def Plain (content : List Part) : Prop :=
  ∀ part ∈ content, part.isPlain = true

instance (content : List Part) : Decidable (Plain content) :=
  inferInstanceAs (Decidable (∀ part ∈ content, part.isPlain = true))

/-! ## Numbers -/

/-- Digits without a leading zero. -/
inductive Whole : List UInt8 → Prop where
  | zero : Whole [48]
  | digits {first : UInt8} {others : List UInt8}
      (leading : Decimal.isDigit first = true) (nonzero : first ≠ 48)
      (decimal : ∀ byte ∈ others, Decimal.isDigit byte = true) :
      Whole (first :: others)

/-- An integer literal and its value. -/
inductive Integer : List UInt8 → Int → Prop where
  | positive {digits : List UInt8} (whole : Whole digits) :
      Integer digits (Decimal.value digits)
  | negative {digits : List UInt8} (whole : Whole digits) :
      Integer (45 :: digits) (-(Decimal.value digits : Int))

/-- Digits, at least one. -/
def Digits (digits : List UInt8) : Prop :=
  digits ≠ [] ∧ ∀ byte ∈ digits, Decimal.isDigit byte = true

inductive Fraction : List UInt8 → Prop where
  | absent : Fraction []
  | present {digits : List UInt8} (decimal : Digits digits) :
      Fraction (46 :: digits)

inductive Exponent : List UInt8 → Prop where
  | absent : Exponent []
  | present {mark : UInt8} {sign digits : List UInt8}
      (letter : mark = 101 ∨ mark = 69)
      (signed : sign = [] ∨ sign = [43] ∨ sign = [45])
      (decimal : Digits digits) : Exponent (mark :: (sign ++ digits))

/-- A number literal. -/
inductive Number : List UInt8 → Prop where
  | mk {integer fraction exponent : List UInt8} {value : Int}
      (whole : Integer integer value) (part : Fraction fraction)
      (scale : Exponent exponent) : Number (integer ++ (fraction ++ exponent))

/-- The literals that are words. -/
inductive Word : List UInt8 → Prop where
  | true : Word [116, 114, 117, 101]
  | false : Word [102, 97, 108, 115, 101]
  | null : Word [110, 117, 108, 108]

/-! ## Values -/

/-- A token: a structural character, a string, or another literal. -/
inductive Token where
  | mark (byte : UInt8)
  | string (content : List Part)
  | literal (word : List UInt8)

def Token.text : Token → List UInt8
  | .mark byte => [byte]
  | .string content => 34 :: (raw content ++ [34])
  | .literal word => word

def isSpace (byte : UInt8) : Bool :=
  byte == 32 || byte == 9 || byte == 10 || byte == 13

/-- Tokens with any white space around them. -/
inductive Spaced : List Token → List UInt8 → Prop where
  | done {blank : List UInt8}
      (spaces : ∀ byte ∈ blank, isSpace byte = true) : Spaced [] blank
  | next {blank rest : List UInt8} {token : Token} {tokens : List Token}
      (spaces : ∀ byte ∈ blank, isSpace byte = true)
      (later : Spaced tokens rest) :
      Spaced (token :: tokens) (blank ++ (token.text ++ rest))

/-- A member of an object: its key, and the tokens of its value. -/
abbrev Member := List Part × List Token

def memberTokens (member : Member) : List Token :=
  .string member.1 :: .mark 58 :: member.2

/-- Items with commas between them. -/
def separated (items : List (List Token)) : List Token :=
  [Token.mark 44].intercalate items

def arrayTokens (elements : List (List Token)) : List Token :=
  .mark 91 :: (separated elements ++ [.mark 93])

def objectTokens (members : List Member) : List Token :=
  .mark 123 :: (separated (members.map memberTokens) ++ [.mark 125])

/-- The tokens of a value. -/
inductive Value : List Token → Prop where
  | word {word : List UInt8} (known : Word word) : Value [.literal word]
  | number {word : List UInt8} (numeric : Number word) : Value [.literal word]
  | string (content : List Part) : Value [.string content]
  | array {elements : List (List Token)}
      (each : ∀ element ∈ elements, Value element) :
      Value (arrayTokens elements)
  | object {members : List Member}
      (each : ∀ member ∈ members, Value member.2) :
      Value (objectTokens members)

/-! ## The bytes of strings -/

theorem utf8_length (code : Nat) :
    0 < (utf8 code).length ∧ (utf8 code).length ≤ 4 := by
  rw [utf8]
  split
  · simp
  · split
    · simp
    · split
      · simp
      · simp

/-- The bytes of a code point outside ASCII. -/
theorem utf8_high {code : Nat} (large : 0x80 ≤ code)
    (bound : code < 0x110000) : ∀ byte ∈ utf8 code, 128 ≤ byte.toNat := by
  have high : ∀ value, 128 ≤ value → value < 256 →
      128 ≤ (UInt8.ofNat value).toNat := by
    intro value lower upper
    rw [UInt8.toNat_ofNat', Nat.mod_eq_of_lt upper]
    exact lower
  intro byte member
  rw [utf8, if_neg (by omega)] at member
  split at member
  · simp only [List.mem_cons, List.not_mem_nil, or_false] at member
    rcases member with rfl | rfl
    · exact high _ (by omega) (by omega)
    · exact high _ (by omega) (by omega)
  · split at member
    · simp only [List.mem_cons, List.not_mem_nil, or_false] at member
      rcases member with rfl | rfl | rfl
      · exact high _ (by omega) (by omega)
      · exact high _ (by omega) (by omega)
      · exact high _ (by omega) (by omega)
    · simp only [List.mem_cons, List.not_mem_nil, or_false] at member
      rcases member with rfl | rfl | rfl | rfl
      · exact high _ (by omega) (by omega)
      · exact high _ (by omega) (by omega)
      · exact high _ (by omega) (by omega)
      · exact high _ (by omega) (by omega)

/-- A plain character has neither quotes nor backslashes. -/
theorem utf8_plain {char : Char}
    (allowed : 32 ≤ char.toNat ∧ char.toNat ≠ 34 ∧ char.toNat ≠ 92) :
    ∀ byte ∈ utf8 char.toNat, byte ≠ 34 ∧ byte ≠ 92 := by
  intro byte member
  by_cases small : char.toNat < 0x80
  · rw [utf8, if_pos small, List.mem_singleton] at member
    have value : byte.toNat = char.toNat := by
      rw [member, UInt8.toNat_ofNat']
      omega
    constructor
    · rintro rfl
      exact allowed.2.1 value.symm
    · rintro rfl
      exact allowed.2.2 value.symm
  · have bound : char.toNat < 0x110000 := by
      have valid := char.valid
      simp only [UInt32.isValidChar, Nat.isValidChar] at valid
      have same : char.toNat = char.val.toNat := rfl
      omega
    have high := utf8_high (by omega) bound byte member
    constructor
    · rintro rfl
      exact absurd high (by decide)
    · rintro rfl
      exact absurd high (by decide)

variable {content rest : List Part} {byte : UInt8}

theorem raw_cons (part : Part) (rest : List Part) :
    raw (part :: rest) = part.raw ++ raw rest := List.flatMap_cons

theorem plain_cons {part : Part} :
    Plain (part :: rest) ↔ part.isPlain = true ∧ Plain rest :=
  List.forall_mem_cons

/-- Without escapes a string denotes its bytes. -/
theorem Plain.decode (plain : Plain content) :
    decode content = raw content := by
  induction content with
  | nil => rfl
  | cons part rest induction =>
      rw [plain_cons] at plain
      obtain ⟨here, others⟩ := plain
      cases part with
      | plain char allowed =>
          rw [decode_plain, raw_cons, induction others]
          rfl
      | short escape => cases here
      | unicode unit => cases here

/-- An escape sequence is longer than what it denotes. -/
theorem decode_length (content : List Part) :
    (decode content).length + content.countP (fun part => !part.isPlain) ≤
      (raw content).length := by
  fun_induction Json.decode content with
  | case1 => simp [raw]
  | case2 rest char allowed induction =>
      rw [raw_cons, List.length_append, List.length_append,
        List.countP_cons_of_neg (by exact Bool.false_ne_true), Part.raw_plain]
      omega
  | case3 rest escape induction =>
      rw [raw_cons, List.length_append, List.length_cons,
        List.countP_cons_of_pos rfl, Part.raw_short]
      simp only [List.length_cons, List.length_nil]
      omega
  | case4 high low rest pair induction =>
      have short := (utf8_length (0x10000 + (high.value - 0xD800) * 0x400
        + (low.value - 0xDC00))).2
      have four := high.four
      have fourLow := low.four
      rw [raw_cons, raw_cons, List.length_append, List.length_append,
        List.length_append, List.countP_cons_of_pos rfl,
        List.countP_cons_of_pos rfl, Part.raw_unicode, Part.raw_unicode]
      simp only [List.length_cons]
      omega
  | case5 high low rest single induction =>
      have short := (utf8_length high.value).2
      have four := high.four
      rw [raw_cons, List.length_append, List.length_append,
        List.countP_cons_of_pos rfl, Part.raw_unicode]
      simp only [List.length_cons]
      omega
  | case6 unit rest different induction =>
      have short := (utf8_length unit.value).2
      have four := unit.four
      rw [raw_cons, List.length_append, List.length_append,
        List.countP_cons_of_pos rfl, Part.raw_unicode]
      simp only [List.length_cons]
      omega

def isAlphanumeric (byte : UInt8) : Bool :=
  (48 ≤ byte && byte ≤ 57) || (65 ≤ byte && byte ≤ 90) ||
    (97 ≤ byte && byte ≤ 122)

theorem isAlphanumeric_of_isHex (hex : isHex byte = true) :
    isAlphanumeric byte = true := by
  simp only [isHex, isAlphanumeric, Bool.or_eq_true, Bool.and_eq_true,
    decide_eq_true_eq, UInt8.le_iff_toNat_le, UInt8.reduceToNat] at hex ⊢
  omega

/-- Escape sequences are written with letters and digits, except for what
stands for itself. -/
theorem mem_raw_part {part : Part} (member : byte ∈ part.raw)
    (noBackslash : byte ≠ 92) (special : isAlphanumeric byte = false) :
    (∃ char allowed, part = .plain char allowed ∧ byte ∈ utf8 char.toNat) ∨
      ∃ escape, part = .short escape ∧ byte = escape.char := by
  cases part with
  | plain char allowed => exact .inl ⟨char, allowed, rfl, member⟩
  | short escape =>
      right
      refine ⟨escape, rfl, ?_⟩
      simp only [Part.raw_short, List.mem_cons, List.not_mem_nil, or_false,
        noBackslash, false_or] at member
      rw [member] at special ⊢
      cases escape with
      | quote => rfl
      | backslash => exact absurd member noBackslash
      | slash => rfl
      | backspace => cases special
      | formFeed => cases special
      | lineFeed => cases special
      | carriageReturn => cases special
      | tab => cases special
  | unicode unit =>
      simp only [Part.raw_unicode, List.mem_cons, noBackslash, false_or]
        at member
      rcases member with rfl | digit
      · cases special
      · rw [isAlphanumeric_of_isHex (unit.hex byte digit)] at special
        cases special

/-- A special character between the quotes is one of the text. -/
theorem mem_decode (member : byte ∈ raw content) (noBackslash : byte ≠ 92)
    (special : isAlphanumeric byte = false) : byte ∈ decode content := by
  have outside : ∀ unit : CodeUnit, byte ∉ (Part.unicode unit).raw := by
    intro unit inside
    rcases mem_raw_part inside noBackslash special with
      ⟨_, _, same, _⟩ | ⟨_, same, _⟩
    · cases same
    · cases same
  fun_induction Json.decode content with
  | case1 => cases member
  | case2 rest char allowed induction =>
      rw [raw_cons, List.mem_append] at member
      rw [List.mem_append]
      exact member.imp id induction
  | case3 rest escape induction =>
      rw [raw_cons, List.mem_append] at member
      rw [List.mem_cons]
      rcases member with here | later
      · rcases mem_raw_part here noBackslash special with
          ⟨_, _, same, _⟩ | ⟨_, same, char⟩
        · cases same
        · cases same
          exact .inl char
      · exact .inr (induction later)
  | case4 high low rest pair induction =>
      rw [raw_cons, raw_cons, List.mem_append, List.mem_append] at member
      have later := (member.resolve_left (outside high)).resolve_left
        (outside low)
      exact List.mem_append_right _ (induction later)
  | case5 high low rest single induction =>
      rw [raw_cons, List.mem_append] at member
      have later := member.resolve_left (outside high)
      exact List.mem_append_right _ (induction later)
  | case6 unit rest different induction =>
      rw [raw_cons, List.mem_append] at member
      have later := member.resolve_left (outside unit)
      exact List.mem_append_right _ (induction later)

/-- Escape sequences are the parts with a backslash. -/
theorem backslash_mem_raw : 92 ∈ raw content ↔ ¬ Plain content := by
  induction content with
  | nil => simp [raw, Plain]
  | cons part rest induction =>
      rw [raw_cons, List.mem_append, induction, plain_cons, not_and_or]
      cases part with
      | plain char allowed =>
          have free : 92 ∉ utf8 char.toNat := fun member =>
            (utf8_plain allowed 92 member).2 rfl
          simp [Part.raw_plain, Part.isPlain, free]
      | short escape => simp [Part.raw_short, Part.isPlain]
      | unicode unit => simp [Part.raw_unicode, Part.isPlain]

/-- A backslash stands before every quote of a string. -/
theorem backslash_of_quote {front later : List UInt8}
    (split : raw content = front ++ 34 :: later) :
    front.getLast? = some 92 := by
  induction content generalizing front with
  | nil =>
      have empty := List.append_eq_nil_iff.mp split.symm
      cases empty.2
  | cons part rest induction =>
      rw [raw_cons, List.append_eq_append_iff] at split
      rcases split with ⟨middle, rfl, others⟩ | ⟨middle, here, others⟩
      · have last := induction others
        rw [List.getLast?_append, last]
        rfl
      · cases middle with
        | nil =>
            have last := @induction [] others.symm
            cases last
        | cons first middle =>
            obtain ⟨rfl, _⟩ := List.cons_eq_cons.mp others
            cases part with
            | plain char allowed =>
                have member : 34 ∈ utf8 char.toNat := by
                  rw [show utf8 char.toNat = _ from here]
                  simp
                exact absurd rfl (utf8_plain allowed 34 member).1
            | short escape =>
                cases front with
                | nil => cases here
                | cons head front =>
                    cases front with
                    | nil =>
                        obtain ⟨same, _⟩ := List.cons_eq_cons.mp here
                        rw [← same]
                        rfl
                    | cons second front => simp [Part.raw_short] at here
            | unicode unit =>
                have member : 34 ∈ Part.raw (.unicode unit) := by
                  rw [here]
                  simp
                simp only [Part.raw_unicode, List.mem_cons] at member
                rcases member with same | same | digit
                · exact absurd same (by decide)
                · exact absurd same (by decide)
                · have hex := unit.hex 34 digit
                  cases hex

/-- An escape sequence shows before the first quote. -/
theorem backslash_mem_takeWhile (escaped : ¬ Plain content) :
    92 ∈ (raw content).takeWhile fun byte => byte != 34 := by
  have divided := @List.takeWhile_append_dropWhile _ (fun byte => byte != 34)
    (raw content)
  cases rest : (raw content).dropWhile fun byte => byte != 34 with
  | nil =>
      rw [rest, List.append_nil] at divided
      rw [divided]
      rw [backslash_mem_raw]
      exact escaped
  | cons quote later =>
      have stops := List.head?_dropWhile_not (fun byte => byte != 34)
        (raw content)
      rw [rest] at stops divided
      have same : quote = 34 := by simpa using stops
      rw [same] at divided
      have last := backslash_of_quote divided.symm
      exact List.mem_of_getLast? last

/-- The bytes up to the first quote are the text of a string only if it has
no escape sequences. -/
theorem takeWhile_eq_decode_iff :
    (raw content).takeWhile (fun byte => byte != 34) = decode content ↔
      Plain content := by
  constructor
  · intro same
    by_contra escaped
    by_cases quoted : 34 ∈ raw content
    · -- The text has the quote, the bytes before it do not.
      have member := mem_decode quoted (by decide) (by decide)
      rw [← same] at member
      have outside := List.mem_takeWhile_imp member
      cases outside
    · have whole : (raw content).takeWhile (fun byte => byte != 34) =
          raw content := by
        apply List.takeWhile_eq_self_iff.mpr
        intro byte member
        rw [bne_iff_ne]
        rintro rfl
        exact quoted member
      have shorter := decode_length content
      rw [← same, whole] at shorter
      have none : content.countP (fun part => !part.isPlain) = 0 := by omega
      apply escaped
      intro part member
      have outside := List.countP_eq_zero.mp none part member
      simpa using outside
  · intro plain
    rw [plain.decode]
    apply List.takeWhile_eq_self_iff.mpr
    intro byte member
    rw [bne_iff_ne]
    rintro rfl
    have last := List.append_of_mem member
    obtain ⟨front, later, split⟩ := last
    have backslash := backslash_of_quote split
    have escaped : ¬ Plain content := by
      rw [← backslash_mem_raw, split]
      exact List.mem_append_left _ (List.mem_of_getLast? backslash)
    exact escaped plain

/-! ## Tokens -/

theorem Spaced.cons {token : Token} {tokens : List Token} {input : List UInt8}
    (spaced : Spaced (token :: tokens) input) :
    ∃ blank rest, (∀ byte ∈ blank, isSpace byte = true) ∧
      input = blank ++ (token.text ++ rest) ∧ Spaced tokens rest := by
  cases spaced with
  | next spaces later => exact ⟨_, _, spaces, rfl, later⟩

/-- Tokens without white space. -/
theorem Spaced.compact (tokens : List Token) :
    Spaced tokens (tokens.flatMap Token.text) := by
  induction tokens with
  | nil => exact .done (by simp)
  | cons token tokens induction =>
      rw [List.flatMap_cons]
      exact @Spaced.next [] _ _ _ (by simp) induction

theorem separated_cons (first : List Token) (others : List (List Token)) :
    separated (first :: others) =
      first ++ others.flatMap fun item => Token.mark 44 :: item := by
  induction others generalizing first with
  | nil => simp [separated, List.intercalate]
  | cons second others induction =>
      have later := induction second
      rw [separated, List.intercalate_cons_cons, ← separated, later,
        List.flatMap_cons]
      simp

/-- The items before one of them, itself, and the items behind it. -/
theorem separated_append (before after : List (List Token))
    (item : List Token) :
    separated (before ++ item :: after) =
      before.flatMap (fun other => other ++ [Token.mark 44])
        ++ (item ++ after.flatMap fun other => Token.mark 44 :: other) := by
  induction before with
  | nil => exact separated_cons item after
  | cons first before induction =>
      rw [List.cons_append, separated_cons, List.flatMap_cons,
        List.append_assoc, ← induction]
      cases before with
      | nil => simp [separated_cons]
      | cons second before => simp [separated_cons]

theorem mem_separated {token : Token} {items : List (List Token)}
    (member : token ∈ separated items) :
    token = .mark 44 ∨ ∃ item ∈ items, token ∈ item := by
  cases items with
  | nil => cases member
  | cons first others =>
      rw [separated_cons, List.mem_append, List.mem_flatMap] at member
      rcases member with here | ⟨item, inside, later⟩
      · exact .inr ⟨first, List.mem_cons_self, here⟩
      · rcases List.mem_cons.mp later with comma | there
        · exact .inl comma
        · exact .inr ⟨item, List.mem_cons_of_mem _ inside, there⟩

/-- The tokens of the items are tokens of the list. -/
theorem mem_separated_of_mem {token : Token} {item : List Token}
    {items : List (List Token)} (isItem : item ∈ items)
    (member : token ∈ item) : token ∈ separated items := by
  obtain ⟨before, after, rfl⟩ := List.append_of_mem isItem
  rw [separated_append]
  apply List.mem_append_right
  exact List.mem_append_left _ member

/-- The tokens of the members are tokens of the object. -/
theorem mem_objectTokens {key : List Part} {value : List Token}
    {members : List Member} (member : (key, value) ∈ members) :
    .string key ∈ objectTokens members ∧
      ∀ token ∈ value, token ∈ objectTokens members := by
  have inside : ∀ token ∈ memberTokens (key, value),
      token ∈ objectTokens members := by
    intro token isToken
    apply List.mem_cons_of_mem
    apply List.mem_append_left
    exact mem_separated_of_mem (List.mem_map_of_mem member) isToken
  constructor
  · exact inside _ List.mem_cons_self
  · intro token isToken
    exact inside token
      (List.mem_cons_of_mem _ (List.mem_cons_of_mem _ isToken))

/-- The tokens between the braces of an object. -/
theorem mem_members {token : Token} {members : List Member}
    (inside : token ∈ separated (members.map memberTokens)) :
    token = .mark 44 ∨ token = .mark 58 ∨
      ∃ member ∈ members, token = .string member.1 ∨ token ∈ member.2 := by
  rcases mem_separated inside with comma | ⟨item, isItem, member⟩
  · exact .inl comma
  · obtain ⟨original, isMember, rfl⟩ := List.mem_map.mp isItem
    rw [memberTokens, List.mem_cons, List.mem_cons] at member
    rcases member with key | colon | value
    · exact .inr (.inr ⟨original, isMember, .inl key⟩)
    · exact .inr (.inl colon)
    · exact .inr (.inr ⟨original, isMember, .inr value⟩)

end Json
