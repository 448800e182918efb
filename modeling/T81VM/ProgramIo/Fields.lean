import T81VM.ProgramIo.Rendering

/-!
# Fields and brackets

What the searches of the document loader find: the leftmost quoted key with a
value behind it, and the bracket that closes an opening one.
-/

namespace T81VM.ProgramIo

open GreedyRegex Scan

theorem text_quote : text "\"" = [34] := rfl

/-! ## Fields -/

/-- A quoted key, a colon, and a value, with spaces around the colon. -/
def fieldText (key left right value : Text) : Text :=
  34 :: (key ++ 34 :: (left ++ 58 :: (right ++ value)))

/-- The text starts with the key and a value in quotes, which ends at the
next quote. -/
def StringAt (key here value : Text) : Prop :=
  ∃ left right later, Blank left ∧ Blank right ∧ 34 ∉ value ∧
    here = fieldText key left right (34 :: (value ++ 34 :: later))

/-- An optional minus sign, and digits. -/
def signedDigits (negative : Bool) (digits : Text) : Text :=
  (if negative then [45] else []) ++ digits

/-- The text starts with the key and an integer; whatever is no digit may
follow. -/
def IntAt (key here : Text) (negative : Bool) (digits : Text) : Prop :=
  ∃ left right later, Blank left ∧ Blank right ∧ digits ≠ [] ∧
    (∀ byte ∈ digits, Decimal.isDigit byte = true) ∧
    (∀ byte ∈ later.head?, Decimal.isDigit byte = false) ∧
    here = fieldText key left right (signedDigits negative digits ++ later)

/-- The first key with a value in quotes has this one. -/
def StringField (obj key value : Text) : Prop :=
  ∃ front here, obj = front ++ here ∧
    First (fun rest => ∃ other, StringAt key rest other) front here ∧
    StringAt key here value

/-- The first key with an integer has this one. -/
def IntField (obj key : Text) (value : Int64) : Prop :=
  ∃ front here negative digits, obj = front ++ here ∧
    First (fun rest => ∃ sign number, IntAt key rest sign number) front here ∧
    IntAt key here negative digits ∧
    value.toInt = if negative then -(Decimal.value digits : Int)
      else Decimal.value digits

variable {key obj here value rest : Text}

theorem colon_not_isSpace : isSpace 58 = false := rfl

/-- A greedy run of spaces ends at a visible byte. -/
theorem stops_at {cls : UInt8 → Bool} {byte : UInt8} {later : Text}
    (outside : cls byte = false) :
    ∀ other ∈ (byte :: later).head?, cls other = false := by
  intro other head
  cases head
  exact outside

/-- The start of a field expression matches the key and the colon. -/
theorem prefers_field {left right value : Text} {pieces : List (Piece UInt8)}
    {result : Match UInt8} (leftBlank : Blank left) (rightBlank : Blank right)
    (visible : ∀ byte ∈ value.head?, isSpace byte = false)
    (matched : Prefers pieces value result) :
    ∃ whole, Prefers (fieldRe key ++ pieces)
        (34 :: (key ++ 34 :: (left ++ 58 :: (right ++ value)))) whole ∧
      whole.captures = result.captures := by
  have spacesAfter := Prefers.star rightBlank visible matched
  have colon : Prefers (.one (isByte ':') :: .star isSpace :: pieces)
      (58 :: (right ++ value)) _ := .one rfl spacesAfter
  have spacesBefore := Prefers.star leftBlank
    (stops_at colon_not_isSpace) colon
  have whole := Prefers.literal (text "\"" ++ (key ++ text "\""))
    spacesBefore
  have regroup : (text "\"" ++ (key ++ text "\""))
      ++ (left ++ 58 :: (right ++ value)) =
      34 :: (key ++ 34 :: (left ++ 58 :: (right ++ value))) := by
    simp [text_quote]
  rw [regroup] at whole
  rw [fieldRe, List.append_assoc]
  exact ⟨_, whole, rfl⟩

/-- A string in quotes is captured up to its closing quote. -/
theorem prefers_string {value : Text} (free : 34 ∉ value) :
    ∃ result, Prefers [.one (isByte '"'),
        .capture [.star fun byte => !isByte '"' byte], .one (isByte '"')]
        (34 :: (value ++ 34 :: rest)) result ∧
      result.captures = [value] := by
  have inside : ∀ byte ∈ value, (!isByte '"' byte) = true := by
    intro byte member
    rw [Bool.not_eq_true', isByte, beq_eq_false_iff_ne]
    rintro rfl
    exact free member
  have closing : Prefers [.one (isByte '"')] (34 :: rest) _ :=
    .one rfl prefers_nil
  have content := @Prefers.star _ (fun byte => !isByte '"' byte) [] value
    (34 :: rest) _ inside (stops_at rfl) prefers_nil
  have captured := Prefers.capture content closing
  exact ⟨_, .one rfl captured, by simp⟩

/-- An integer is captured up to a byte that is no digit. -/
theorem prefers_digits {digits : Text} (negative : Bool) (nonempty : digits ≠ [])
    (decimal : ∀ byte ∈ digits, Decimal.isDigit byte = true)
    (stops : ∀ byte ∈ rest.head?, Decimal.isDigit byte = false) :
    ∃ result, Prefers
        [.capture [.optional (isByte '-'), .plus Decimal.isDigit]]
        (signedDigits negative digits ++ rest) result ∧
      result.captures = [signedDigits negative digits] := by
  have run := Prefers.plus nonempty decimal stops prefers_nil
  have inner : Prefers [.optional (isByte '-'), .plus Decimal.isDigit]
      (signedDigits negative digits ++ rest)
      ⟨signedDigits negative digits, [], rest⟩ := by
    cases negative with
    | true =>
        have signed := @Prefers.present _ (isByte '-') _ _ _ 45 rfl run
        simpa [signedDigits] using signed
    | false =>
        obtain ⟨first, others, cons⟩ := List.exists_cons_of_ne_nil nonempty
        have noSign : ∀ byte ∈ (digits ++ rest).head?,
            isByte '-' byte = false := by
          rw [cons]
          apply stops_at
          exact (isDigit_range first (decimal first
            (cons ▸ List.mem_cons_self))).1
        have unsigned := Prefers.absent noSign run
        simpa [signedDigits] using unsigned
  have captured := Prefers.capture inner prefers_nil
  exact ⟨_, captured, by simp⟩

/-- The start of a field expression consumes the key and the colon. -/
theorem leaves_field {pieces : List (Piece UInt8)} :
    Leaves (fieldRe key ++ pieces) here rest ↔
      ∃ left right later, Blank left ∧ Blank right ∧
        here = fieldText key left right later ∧ Leaves pieces later rest := by
  rw [fieldRe, List.append_assoc, leaves_literal]
  constructor
  · intro ⟨middle, whole, matched⟩
    rw [List.cons_append, leaves_star] at matched
    obtain ⟨left, afterLeft, rfl, leftBlank, matched⟩ := matched
    rw [List.cons_append, leaves_one] at matched
    obtain ⟨colon, afterColon, rfl, isColon, matched⟩ := matched
    rw [List.cons_append, leaves_star] at matched
    obtain ⟨right, later, rfl, rightBlank, matched⟩ := matched
    refine ⟨left, right, later, leftBlank, rightBlank, ?_, matched⟩
    rw [whole, eq_of_beq isColon]
    simp [fieldText, text_quote]
    rfl
  · intro ⟨left, right, later, leftBlank, rightBlank, whole, matched⟩
    refine ⟨left ++ 58 :: (right ++ later), ?_, ?_⟩
    · rw [whole]
      simp [fieldText, text_quote]
    · rw [List.cons_append, leaves_star]
      refine ⟨left, _, rfl, leftBlank, ?_⟩
      rw [List.cons_append, leaves_one]
      refine ⟨58, _, rfl, rfl, ?_⟩
      rw [List.cons_append, leaves_star]
      exact ⟨right, later, rfl, rightBlank, matched⟩

theorem stringAt_of_leaves (matched : Leaves (stringFieldRe key) here rest) :
    ∃ value, StringAt key here value := by
  rw [stringFieldRe, leaves_field] at matched
  obtain ⟨left, right, later, leftBlank, rightBlank, rfl, string⟩ := matched
  obtain ⟨opening, middle, rfl, isOpening, content⟩ := leaves_one.mp string
  obtain ⟨closing, captured, ending⟩ := leaves_capture.mp content
  obtain ⟨value, _, rfl, inside, ends⟩ := leaves_star.mp captured
  rw [leaves_nil] at ends
  subst ends
  obtain ⟨last, final, rfl, isClosing, _⟩ := leaves_one.mp ending
  refine ⟨value, left, right, final, leftBlank, rightBlank, ?_, ?_⟩
  · intro quote
    have outside := inside 34 quote
    cases outside
  · rw [eq_of_beq isOpening, eq_of_beq isClosing]
    rfl

theorem intAt_of_leaves (matched : Leaves (intFieldRe key) here rest) :
    ∃ negative digits, IntAt key here negative digits := by
  rw [intFieldRe, leaves_field] at matched
  obtain ⟨left, right, later, leftBlank, rightBlank, rfl, integer⟩ := matched
  obtain ⟨_, captured, _⟩ := leaves_capture.mp integer
  have digits : ∀ {start ends : Text},
      Leaves [.plus Decimal.isDigit] start ends →
      start.takeWhile Decimal.isDigit ≠ [] := by
    intro start ends consumed
    obtain ⟨run, middle, rfl, nonempty, inside, _⟩ := leaves_plus.mp consumed
    rw [List.takeWhile_append_of_pos inside]
    exact List.append_ne_nil_of_left_ne_nil nonempty _
  have stands : ∀ (negative : Bool) (start : Text),
      start.takeWhile Decimal.isDigit ≠ [] →
      IntAt key (fieldText key left right
        ((if negative then [45] else []) ++ start)) negative
        (start.takeWhile Decimal.isDigit) := by
    intro negative start nonempty
    refine ⟨left, right, start.dropWhile Decimal.isDigit, leftBlank,
      rightBlank, nonempty, fun byte => List.mem_takeWhile_imp, ?_, ?_⟩
    · have head := List.head?_dropWhile_not Decimal.isDigit start
      intro byte first
      rw [first] at head
      exact head
    · rw [signedDigits, List.append_assoc, List.takeWhile_append_dropWhile]
  rcases leaves_optional.mp captured with unsigned | signed
  · exact ⟨false, _, stands false later (digits unsigned)⟩
  · obtain ⟨sign, start, rfl, isSign, consumed⟩ := signed
    have isMinus : sign = 45 := eq_of_beq isSign
    rw [isMinus]
    exact ⟨true, _, stands true start (digits consumed)⟩

theorem StringAt.prefers (stands : StringAt key here value) :
    ∃ result, Prefers (stringFieldRe key) here result ∧
      result.captures = [value] := by
  obtain ⟨left, right, later, leftBlank, rightBlank, free, rfl⟩ := stands
  obtain ⟨result, matched, captures⟩ := @prefers_string later value free
  obtain ⟨whole, prefers, same⟩ := @prefers_field key _ _ _ _ _ leftBlank
    rightBlank (stops_at rfl) matched
  exact ⟨whole, prefers, same.trans captures⟩

theorem IntAt.prefers {negative : Bool} {digits : Text}
    (stands : IntAt key here negative digits) :
    ∃ result, Prefers (intFieldRe key) here result ∧
      result.captures = [signedDigits negative digits] := by
  obtain ⟨left, right, later, leftBlank, rightBlank, nonempty, decimal, stops,
    rfl⟩ := stands
  obtain ⟨result, matched, captures⟩ :=
    @prefers_digits later digits negative nonempty decimal stops
  have visible : ∀ byte ∈ (signedDigits negative digits ++ later).head?,
      isSpace byte = false := by
    cases negative with
    | true => exact stops_at rfl
    | false =>
        obtain ⟨first, others, rfl⟩ := List.exists_cons_of_ne_nil nonempty
        exact stops_at (isDigit_range first
          (decimal first List.mem_cons_self)).2.2
  obtain ⟨whole, prefers, same⟩ := @prefers_field key _ _ _ _ _ leftBlank
    rightBlank visible matched
  exact ⟨whole, prefers, same.trans captures⟩

/-- The first capture of a search, for a pattern whose matches are known. -/
theorem firstCapture_eq_some_iff {pattern : List (Piece UInt8)}
    {At : Text → Text → Prop}
    (prefers : ∀ {here value}, At here value →
      ∃ result, Prefers pattern here result ∧ result.captures = [value])
    (found : ∀ {here rest}, Leaves pattern here rest →
      ∃ value, At here value) :
    firstCapture pattern obj = some value ↔
      ∃ front here, obj = front ++ here ∧
        First (fun rest => ∃ other, At rest other) front here ∧
        At here value := by
  have matches_iff : ∀ here : Text,
      (sequenceMatches pattern here).head? ≠ none ↔
        ∃ other, At here other := by
    intro here
    rw [matches_iff_leaves]
    constructor
    · intro consumed
      obtain ⟨rest, matched⟩ := consumed
      exact found matched
    · intro starts
      obtain ⟨other, stands⟩ := starts
      obtain ⟨result, preferred, _⟩ := prefers stands
      exact matches_iff_leaves.mp (by simp [show _ = _ from preferred])
  rw [firstCapture, search]
  simp only [Option.bind_eq_some_iff, leftmost_eq_some_iff, matches_iff]
  constructor
  · intro success
    obtain ⟨result, ⟨front, here, whole, first, preferred⟩, captured⟩ := success
    obtain ⟨other, stands⟩ := first.found
    obtain ⟨same, again, captures⟩ := prefers stands
    have equal : result = same := Option.some.inj (preferred.symm.trans again)
    rw [equal, captures] at captured
    cases captured
    exact ⟨front, here, whole, first, stands⟩
  · intro place
    obtain ⟨front, here, whole, first, stands⟩ := place
    obtain ⟨result, preferred, captures⟩ := prefers stands
    refine ⟨result, ⟨front, here, whole, first, preferred⟩, ?_⟩
    rw [captures]
    rfl

theorem parseStringField_eq_some_iff :
    parseStringField obj key = some value ↔ StringField obj key value :=
  firstCapture_eq_some_iff StringAt.prefers stringAt_of_leaves

theorem stoll_signedDigits {negative : Bool} {digits : Text}
    (nonempty : digits ≠ [])
    (decimal : ∀ byte ∈ digits, Decimal.isDigit byte = true) :
    stoll (signedDigits negative digits) =
      match signedWord negative (Decimal.value digits) with
      | some value => .ok value
      | none => .error .outOfRange := by
  have split : splitSign (signedDigits negative digits) =
      (negative, digits) := by
    cases negative with
    | true =>
        have minus := @splitSign_signed _ _ _ [] .minus nonempty decimal
        rwa [List.append_nil, List.append_nil] at minus
    | false =>
        have plain := @splitSign_signed _ _ _ [] .plain nonempty decimal
        rwa [List.append_nil, List.append_nil] at plain
  have parts : stoll (signedDigits negative digits) =
      match signedWord (splitSign (signedDigits negative digits)).1
        (Decimal.value (splitSign (signedDigits negative digits)).2) with
      | some value => .ok value
      | none => .error .outOfRange := rfl
  rwa [split] at parts

/-- The integer a field expression captures is the first one. -/
theorem captured_integer_iff {number : Text} :
    firstCapture (intFieldRe key) obj = some number ↔
      ∃ front here, obj = front ++ here ∧
        First (fun rest => ∃ negative digits, IntAt key rest negative digits)
          front here ∧
        ∃ negative digits, number = signedDigits negative digits ∧
          IntAt key here negative digits := by
  have captures : firstCapture (intFieldRe key) obj = some number ↔
      ∃ front here, obj = front ++ here ∧
        First (fun rest => ∃ other negative digits,
          other = signedDigits negative digits ∧
          IntAt key rest negative digits) front here ∧
        ∃ negative digits, number = signedDigits negative digits ∧
          IntAt key here negative digits := by
    apply firstCapture_eq_some_iff
    · intro here value ⟨negative, digits, same, stands⟩
      rw [same]
      exact stands.prefers
    · intro here rest matched
      obtain ⟨negative, digits, stands⟩ := intAt_of_leaves matched
      exact ⟨_, negative, digits, rfl, stands⟩
  have plain : ∀ rest : Text, (∃ other negative digits,
      other = signedDigits negative digits ∧
        IntAt key rest negative digits) ↔
      ∃ negative digits, IntAt key rest negative digits := by
    intro rest
    constructor
    · intro ⟨_, negative, digits, _, stands⟩
      exact ⟨negative, digits, stands⟩
    · intro ⟨negative, digits, stands⟩
      exact ⟨_, negative, digits, rfl, stands⟩
  simp only [plain] at captures
  exact captures

theorem parseIntField_eq_ok_iff {word : Int64} :
    parseIntField obj key = .ok (some word) ↔ IntField obj key word := by
  rw [parseIntField]
  constructor
  · intro parsed
    split at parsed
    · cases parsed
    · rename_i number captured
      rw [captured_integer_iff] at captured
      obtain ⟨front, here, whole, first, negative, digits, rfl, stands⟩ :=
        captured
      obtain ⟨value, read, same⟩ := bind_eq_ok.mp parsed
      cases same
      refine ⟨front, here, negative, digits, whole, first, stands, ?_⟩
      obtain ⟨_, _, _, _, _, nonempty, decimal, _⟩ := stands
      rw [stoll_signedDigits nonempty decimal] at read
      split at read
      · rename_i word signed
        cases read
        exact signedWord_eq_some_iff.mp signed
      · cases read
  · intro ⟨front, here, negative, digits, whole, first, stands, same⟩
    have captured := captured_integer_iff.mpr
      ⟨front, here, whole, first, negative, digits, rfl, stands⟩
    obtain ⟨_, _, _, _, _, nonempty, decimal, _⟩ := stands
    rw [captured]
    simp only [stoll_signedDigits nonempty decimal,
      signedWord_eq_some_iff.mpr same]
    rfl

/-! ## Brackets -/

/-- The text is an opening bracket up to the closing one that brings the
brackets into balance. -/
structure Closes (opening closing : UInt8) (inside : Text) : Prop where
  opens : inside.head? = some opening
  balanced : inside.count opening = inside.count closing
  inner : ∀ front, front <+: inside → front ≠ [] → front ≠ inside →
    front.count closing < front.count opening

/-- The text closes that many open brackets, and the last one with its last
byte. -/
structure ClosesFrom (opening closing : UInt8) (depth : Int) (inside : Text) :
    Prop where
  balanced : depth + inside.count opening = inside.count closing
  inner : ∀ front, front <+: inside → front ≠ inside →
    (front.count closing : Int) < depth + front.count opening

variable {opening closing byte : UInt8} {inside later : Text} {depth : Int}

theorem closesFrom_nil : ClosesFrom opening closing depth [] ↔ depth = 0 := by
  constructor
  · intro closes
    simpa using closes.balanced
  · intro zero
    refine ⟨by simp [zero], ?_⟩
    intro front starts proper
    exact absurd (List.prefix_nil.mp starts) proper

theorem closesFrom_zero : ClosesFrom opening closing 0 inside ↔
    inside = [] := by
  constructor
  · intro closes
    by_contra nonempty
    have start := closes.inner [] List.nil_prefix (Ne.symm nonempty)
    simp at start
  · intro empty
    rw [empty, closesFrom_nil]

/-- One byte of the scan. -/
theorem closesFrom_cons :
    ClosesFrom opening closing depth (byte :: inside) ↔
      0 < depth ∧ ClosesFrom opening closing
        (depth + (if byte = opening then 1 else 0)
          - (if byte = closing then 1 else 0)) inside := by
  have counted : ∀ (front : Text) (bracket : UInt8),
      ((byte :: front).count bracket : Int) =
        front.count bracket + (if byte = bracket then 1 else 0) := by
    intro front bracket
    rw [List.count_cons]
    by_cases same : byte = bracket <;> simp [same]
  constructor
  · intro closes
    have positive := closes.inner [] List.nil_prefix
      (List.cons_ne_nil byte inside).symm
    refine ⟨by simpa using positive, ?_, ?_⟩
    · have balanced := closes.balanced
      rw [counted, counted] at balanced
      omega
    · intro front starts proper
      have below := closes.inner (byte :: front)
        (List.cons_prefix_cons.mpr ⟨rfl, starts⟩) (by simpa using proper)
      rw [counted, counted] at below
      omega
  · intro ⟨positive, closes⟩
    constructor
    · have balanced := closes.balanced
      rw [counted, counted]
      omega
    · intro front starts proper
      cases front with
      | nil => simpa using positive
      | cons first front =>
          obtain ⟨rfl, shorter⟩ := List.cons_prefix_cons.mp starts
          have below := closes.inner front shorter (by simpa using proper)
          rw [counted, counted]
          omega

/-- Below open brackets the first byte belongs to what is closed. -/
theorem cons_closes_iff {bytes : Text} (deep : 0 < depth) :
    byte :: bytes = inside ++ rest ∧
        ClosesFrom opening closing depth inside ↔
      ∃ inner, inside = byte :: inner ∧ bytes = inner ++ rest ∧
        ClosesFrom opening closing
          (depth + (if byte = opening then 1 else 0)
            - (if byte = closing then 1 else 0)) inner := by
  constructor
  · intro closed
    obtain ⟨whole, closes⟩ := closed
    cases inside with
    | nil =>
        rw [closesFrom_nil] at closes
        omega
    | cons first inner =>
        obtain ⟨rfl, remaining⟩ := List.cons_eq_cons.mp whole
        rw [closesFrom_cons] at closes
        exact ⟨inner, rfl, remaining, closes.2⟩
  · intro closed
    obtain ⟨inner, rfl, rfl, closes⟩ := closed
    refine ⟨rfl, ?_⟩
    rw [closesFrom_cons]
    exact ⟨deep, closes⟩

/-- A scan below open brackets ends where they are closed. -/
theorem scanClosing_depth {input : Text} (differ : opening ≠ closing)
    (deep : 0 < depth) :
    scanClosing opening closing depth input = some (inside, rest) ↔
      input = inside ++ rest ∧
        ClosesFrom opening closing depth inside := by
  induction input generalizing depth inside with
  | nil =>
      rw [scanClosing, List.nil_eq_append_iff]
      constructor
      · intro none
        cases none
      · intro closed
        obtain ⟨⟨empty, _⟩, closes⟩ := closed
        rw [empty, closesFrom_nil] at closes
        omega
  | cons byte bytes induction =>
      have later : ∀ next : Int, 0 < next →
          depth + (if byte = opening then 1 else 0)
            - (if byte = closing then 1 else 0) = next →
          ((scanClosing opening closing next bytes).map
              (fun divided => (byte :: divided.1, divided.2)) =
            some (inside, rest) ↔
          byte :: bytes = inside ++ rest ∧
            ClosesFrom opening closing depth inside) := by
        intro next positive same
        rw [Option.map_eq_some_iff, cons_closes_iff deep, same]
        constructor
        · intro mapped
          obtain ⟨⟨inner, others⟩, scanned, equal⟩ := mapped
          cases equal
          exact ⟨inner, rfl, (induction positive).mp scanned⟩
        · intro closed
          obtain ⟨inner, rfl, closes⟩ := closed
          exact ⟨(inner, rest), (induction positive).mpr closes, rfl⟩
      rw [scanClosing]
      by_cases isOpening : byte = opening
      · have notClosing : byte ≠ closing := isOpening ▸ differ
        rw [if_pos (beq_iff_eq.mpr isOpening)]
        apply later
        · omega
        · rw [if_pos isOpening, if_neg notClosing]
          omega
      · rw [if_neg (by simpa using isOpening)]
        by_cases isClosing : byte = closing
        · rw [if_pos (beq_iff_eq.mpr isClosing)]
          by_cases last : depth - 1 = 0
          · rw [if_pos last]
            have zero : depth + (if byte = opening then 1 else 0)
                - (if byte = closing then 1 else 0) = 0 := by
              rw [if_neg isOpening, if_pos isClosing]
              omega
            rw [cons_closes_iff deep, zero]
            constructor
            · intro scanned
              cases scanned
              refine ⟨[], rfl, rfl, ?_⟩
              rw [closesFrom_zero]
            · intro closed
              obtain ⟨inner, rfl, remaining, closes⟩ := closed
              rw [closesFrom_zero] at closes
              subst closes
              rw [remaining]
              rfl
          · rw [if_neg last]
            apply later
            · omega
            · rw [if_neg isOpening, if_pos isClosing]
              omega
        · rw [if_neg (by simpa using isClosing)]
          apply later
          · omega
          · rw [if_neg isOpening, if_neg isClosing]
            omega

theorem closes_cons (differ : opening ≠ closing) :
    Closes opening closing (opening :: inside) ↔
      ClosesFrom opening closing 1 inside := by
  have counted : ∀ front : Text,
      (opening :: front).count opening = front.count opening + 1 ∧
        (opening :: front).count closing = front.count closing := by
    intro front
    constructor
    · exact List.count_cons_self
    · exact List.count_cons_of_ne differ
  constructor
  · intro closes
    constructor
    · have balanced := closes.balanced
      rw [(counted inside).1, (counted inside).2] at balanced
      omega
    · intro front starts proper
      have below := closes.inner (opening :: front)
        (List.cons_prefix_cons.mpr ⟨rfl, starts⟩) (List.cons_ne_nil _ _)
        (by simpa using proper)
      rw [(counted front).1, (counted front).2] at below
      omega
  · intro closes
    refine ⟨rfl, ?_, ?_⟩
    · have balanced := closes.balanced
      rw [(counted inside).1, (counted inside).2]
      omega
    · intro front starts nonempty proper
      obtain ⟨first, others, rfl⟩ := List.exists_cons_of_ne_nil nonempty
      obtain ⟨rfl, shorter⟩ := List.cons_prefix_cons.mp starts
      have below := closes.inner others shorter (by simpa using proper)
      rw [(counted others).1, (counted others).2]
      omega

/-- A scan from an opening bracket ends where the bracket is closed. -/
theorem scanClosing_eq_some_iff (differ : opening ≠ closing) :
    scanClosing opening closing 0 (opening :: here) = some (inside, later) ↔
      opening :: here = inside ++ later ∧ Closes opening closing inside := by
  rw [scanClosing, if_pos (beq_self_eq_true opening), Option.map_eq_some_iff]
  constructor
  · intro ⟨(inner, others), scanned, equal⟩
    cases equal
    obtain ⟨rfl, closes⟩ := (scanClosing_depth differ (by decide)).mp scanned
    exact ⟨rfl, (closes_cons differ).mpr closes⟩
  · intro ⟨whole, closes⟩
    obtain ⟨others, rfl⟩ := List.head?_eq_some_iff.mp closes.opens
    obtain ⟨_, remaining⟩ := List.cons_eq_cons.mp whole
    exact ⟨(others, later), (scanClosing_depth differ (by decide)).mpr
      ⟨remaining, (closes_cons differ).mp closes⟩, rfl⟩

/-- A bracket is closed by the next one if there are none between them. -/
theorem closes_pair (differ : opening ≠ closing) (noOpening : opening ∉ inside)
    (noClosing : closing ∉ inside) :
    Closes opening closing (opening :: (inside ++ [closing])) := by
  refine ⟨rfl, ?_, ?_⟩
  · have none := List.count_eq_zero_of_not_mem noOpening
    have noneClosing := List.count_eq_zero_of_not_mem noClosing
    rw [List.count_cons_self, List.count_cons_of_ne differ, List.count_append,
      List.count_append, none, noneClosing, List.count_singleton_self,
      List.count_eq_zero_of_not_mem (by simpa using differ)]
  · intro front starts nonempty proper
    obtain ⟨first, others, rfl⟩ := List.exists_cons_of_ne_nil nonempty
    obtain ⟨rfl, shorter⟩ := List.cons_prefix_cons.mp starts
    have within : others <+: inside := by
      rcases List.prefix_concat_iff.mp shorter with whole | within
      · exact absurd (whole ▸ rfl) proper
      · exact within
    have none : others.count closing = 0 :=
      List.count_eq_zero_of_not_mem fun member =>
        noClosing (within.subset member)
    rw [List.count_cons_self, List.count_cons_of_ne differ, none]
    exact Nat.succ_pos _

/-- A text starts with at most one pair of brackets. -/
theorem Closes.unique {other : Text} (differ : opening ≠ closing)
    (closes : Closes opening closing inside)
    (closesOther : Closes opening closing other)
    (same : inside ++ rest = other ++ later) :
    inside = other ∧ rest = later := by
  obtain ⟨others, rfl⟩ := List.head?_eq_some_iff.mp closes.opens
  have scanned : scanClosing opening closing 0 (opening :: (others ++ rest)) =
      some (opening :: others, rest) :=
    (scanClosing_eq_some_iff differ).mpr ⟨rfl, closes⟩
  have again : scanClosing opening closing 0 (opening :: (others ++ rest)) =
      some (other, later) :=
    (scanClosing_eq_some_iff differ).mpr ⟨same, closesOther⟩
  exact Prod.mk.inj (Option.some.inj (scanned.symm.trans again))

/-- An open bracket is not closed by the end of a pair inside. -/
theorem not_closes_append_pair (differ : opening ≠ closing)
    (noOpening : opening ∉ inside) (noClosing : closing ∉ inside) :
    ¬ Closes opening closing
      (opening :: rest ++ opening :: (inside ++ [closing])) := by
  intro closes
  have opened := closes.inner (opening :: rest)
    (List.prefix_append _ _) (List.cons_ne_nil _ _) (by simp)
  have pair := (closes_pair differ noOpening noClosing).balanced
  have balanced := closes.balanced
  rw [List.count_append, List.count_append, pair] at balanced
  omega

end T81VM.ProgramIo
