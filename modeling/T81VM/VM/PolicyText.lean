import T81VM.VM.CApi

/-!
# The tier of a policy text

The policy tier is the number in the first `(tier N)` of the policy text.  It
is converted without a guard, so a number that does not fit in an `int` makes
the load throw.
-/

namespace T81VM.VM

open Tisc GreedyRegex Scan ProgramIo

/-- The text starts with a tier clause around these digits. -/
def StartsClause (digits rest : Text) : Prop :=
  ∃ spaces after,
    rest = text "(tier" ++ (spaces ++ (digits ++ ')'.toUInt8 :: after)) ∧
    spaces ≠ [] ∧ (∀ byte ∈ spaces, isSpace byte = true) ∧
    digits ≠ [] ∧ ∀ byte ∈ digits, Decimal.isDigit byte = true

/-- Some tier clause starts here. -/
def ClauseHere (rest : Text) : Prop :=
  ∃ digits, StartsClause digits rest

/-- The first tier clause of the text is one around these digits. -/
def FirstClause (policyText digits : Text) : Prop :=
  ∃ front rest, policyText = front ++ rest ∧
    First ClauseHere front rest ∧ StartsClause digits rest

/-- The policy has the tier of the first clause of the text. -/
def TierKept (policyText : Text) (policy : Option Policy) : Prop :=
  ∀ digits, FirstClause policyText digits →
    ∃ kept, policy = some kept ∧
      kept.tier.toInt = (Decimal.value digits : Int)

/-- Loading the program returns normally and keeps its tier, whether the
image, the object or a file of the C interface is loaded. -/
structure KeepsTier (program : Program) : Prop where
  image : ∃ loaded, loadProgramImage program = .ok loaded ∧
    TierKept program.axionPolicyText loaded.initialState.policy
  object : ∀ vm : Interpreter, ∃ loaded, vm.loadProgram program = .ok loaded ∧
    TierKept program.axionPolicyText loaded.state.policy
  file : ∀ content path handle loaded,
    loadProgramFromFile content path = .ok loaded → loaded.ok = true →
    loaded.program = program →
      ∃ final, t81vmLoadFile content (some path) (some handle) =
          (.status kStatusOk, some final) ∧
        TierKept program.axionPolicyText final.vm.state.policy

/-! ## The expression and the clause -/

theorem tierRe_eq : tierRe = literal (text "(tier") ++
    [.plus isSpace, .capture [.plus Decimal.isDigit], .one (isByte ')')] := rfl

theorem not_isSpace_of_isDigit {byte : UInt8}
    (digit : Decimal.isDigit byte = true) : isSpace byte = false := by
  simp only [Decimal.isDigit, Bool.and_eq_true, decide_eq_true_iff,
    UInt8.le_iff_toNat_le, UInt8.reduceToNat] at digit
  rw [Bool.eq_false_iff]
  intro space
  simp only [isSpace, Bool.or_eq_true, Bool.and_eq_true, beq_iff_eq,
    decide_eq_true_iff, UInt8.le_iff_toNat_le, UInt8.reduceToNat] at space
  rcases space with blank | control
  · rw [blank] at digit
    exact absurd digit (by decide)
  · omega

/-- At a clause the expression matches and captures its digits. -/
theorem StartsClause.prefers {digits rest : Text}
    (clause : StartsClause digits rest) :
    ∃ found, Prefers tierRe rest found ∧ found.captures = [digits] := by
  obtain ⟨spaces, after, whole, someSpace, spaced, someDigit, numeric⟩ :=
    clause
  have closing : Prefers [.one (isByte ')')] (')'.toUInt8 :: after)
      ⟨[')'.toUInt8], [], after⟩ := Prefers.one rfl prefers_nil
  have ends : ∀ byte ∈ (')'.toUInt8 :: after).head?,
      Decimal.isDigit byte = false := by
    intro byte member
    cases member
    rfl
  have number : Prefers [.plus Decimal.isDigit]
      (digits ++ ')'.toUInt8 :: after)
      ⟨digits, [], ')'.toUInt8 :: after⟩ := by
    have run := Prefers.plus someDigit numeric ends prefers_nil
    rw [List.append_nil] at run
    exact run
  have begins : ∀ byte ∈ (digits ++ ')'.toUInt8 :: after).head?,
      isSpace byte = false := by
    intro byte member
    cases digits with
    | nil => exact absurd rfl someDigit
    | cons first others =>
        have same : first = byte := Option.some.inj member
        rw [← same]
        exact not_isSpace_of_isDigit (numeric first List.mem_cons_self)
  rw [whole, tierRe_eq]
  exact ⟨_, Prefers.literal _ (Prefers.plus someSpace spaced begins
    (Prefers.capture number closing)), rfl⟩

/-- Where the expression matches there is a clause. -/
theorem clauseHere_of_matches {rest : Text}
    (matched : (sequenceMatches tierRe rest).head? ≠ none) :
    ClauseHere rest := by
  obtain ⟨final, leaves⟩ := matches_iff_leaves.mp matched
  rw [tierRe_eq] at leaves
  obtain ⟨spaced, wholeText, afterWord⟩ := leaves_literal.mp leaves
  obtain ⟨spaces, numbered, wholeSpaces, someSpace, inside, afterSpaces⟩ :=
    leaves_plus.mp afterWord
  obtain ⟨closing, captured, afterDigits⟩ := leaves_capture.mp afterSpaces
  obtain ⟨digits, behind, wholeDigits, someDigit, numeric, stops⟩ :=
    leaves_plus.mp captured
  obtain ⟨last, after, wholeClosing, isClosing, _⟩ :=
    leaves_one.mp afterDigits
  rw [leaves_nil] at stops
  have closes : last = ')'.toUInt8 := eq_of_beq isClosing
  refine ⟨digits, spaces, after, ?_, someSpace, inside, someDigit, numeric⟩
  rw [wholeText, wholeSpaces, wholeDigits, stops, wholeClosing, closes]

theorem matches_iff_clauseHere {rest : Text} :
    (sequenceMatches tierRe rest).head? ≠ none ↔ ClauseHere rest := by
  constructor
  · exact clauseHere_of_matches
  · intro here
    obtain ⟨digits, clause⟩ := here
    obtain ⟨found, prefers, _⟩ := clause.prefers
    rw [prefers]
    exact Option.some_ne_none found

/-! ## The search -/

variable {policyText digits : Text} {program : Program}

/-- The search finds the first clause and captures its digits. -/
theorem FirstClause.search (first : FirstClause policyText digits) :
    ∃ found, search tierRe policyText = some found ∧
      found.captures = [digits] := by
  obtain ⟨front, rest, whole, leftmost, clause⟩ := first
  obtain ⟨found, prefers, captures⟩ := clause.prefers
  refine ⟨found, ?_, captures⟩
  apply leftmost_eq_some_iff.mpr
  refine ⟨front, rest, whole, ⟨?_, ?_⟩, prefers⟩
  · exact matches_iff_clauseHere.mpr leftmost.found
  · intro left right same shorter matched
    exact leftmost.earlier left right same shorter
      (matches_iff_clauseHere.mp matched)

/-- A match of the search is at a first clause. -/
theorem exists_firstClause {found : Match UInt8}
    (searched : GreedyRegex.search tierRe policyText = some found) :
    ∃ digits, FirstClause policyText digits := by
  obtain ⟨front, rest, whole, leftmost, _⟩ :=
    leftmost_eq_some_iff.mp searched
  have found : ClauseHere rest := matches_iff_clauseHere.mp leftmost.found
  obtain ⟨digits, clause⟩ := found
  refine ⟨digits, front, rest, whole, ⟨⟨digits, clause⟩, ?_⟩, clause⟩
  intro left right same shorter here
  exact leftmost.earlier left right same shorter
    (matches_iff_clauseHere.mpr here)

/-- The policy text is parsed by its first clause. -/
theorem FirstClause.parsePolicy (first : FirstClause policyText digits) :
    VM.parsePolicy policyText =
      (stoi digits >>= fun tier => .ok (some { tier })) := by
  obtain ⟨found, searched, captures⟩ := first.search
  rw [VM.parsePolicy, searched]
  simp only [captures]
  rfl

theorem parsePolicy_of_no_clause
    (none : ∀ digits, ¬ FirstClause policyText digits) :
    parsePolicy policyText = .ok .none := by
  cases searched : search tierRe policyText with
  | some found =>
      obtain ⟨digits, first⟩ := exists_firstClause searched
      exact absurd first (none digits)
  | none =>
      rw [parsePolicy, searched]

/-- The digits of the first clause are the same however it is read. -/
theorem FirstClause.unique {other : Text}
    (first : FirstClause policyText digits)
    (also : FirstClause policyText other) : digits = other := by
  obtain ⟨found, searched, captures⟩ := first.search
  obtain ⟨again, alsoSearched, alsoCaptures⟩ := also.search
  rw [searched] at alsoSearched
  cases alsoSearched
  rw [captures] at alsoCaptures
  exact (List.cons_eq_cons.mp alsoCaptures).1

/-! ## The tier -/

theorem stoi_eq_ok {tier : Int32} : stoi digits = .ok tier ↔
    Decimal.value digits < 2 ^ 31 ∧
      tier = Int32.ofNat (Decimal.value digits) := by
  rw [stoi]
  by_cases fits : Decimal.value digits < 2 ^ 31
  · rw [if_pos fits]
    constructor
    · intro converted
      cases converted
      exact ⟨fits, rfl⟩
    · intro converted
      rw [converted.2]
  · rw [if_neg fits]
    constructor
    · intro converted
      cases converted
    · intro converted
      exact absurd converted.1 fits

/-- The policy text is parsed, and keeps its tier, exactly when the number of
its first clause is an `int`. -/
theorem parsePolicy_iff :
    (∃ policy, parsePolicy policyText = .ok policy) ↔
      ∀ digits, FirstClause policyText digits →
        Decimal.value digits < 2 ^ 31 := by
  constructor
  · intro parsed digits first
    obtain ⟨policy, parsed⟩ := parsed
    rw [first.parsePolicy] at parsed
    obtain ⟨tier, converted, _⟩ := bind_eq_ok.mp parsed
    rw [stoi_eq_ok] at converted
    exact converted.1
  · intro small
    by_cases clause : ∃ digits, FirstClause policyText digits
    · obtain ⟨digits, first⟩ := clause
      refine ⟨some { tier := Int32.ofNat (Decimal.value digits) }, ?_⟩
      have converted : stoi digits =
          .ok (Int32.ofNat (Decimal.value digits)) := by
        rw [stoi_eq_ok]
        exact ⟨small digits first, rfl⟩
      rw [first.parsePolicy]
      exact bind_eq_ok.mpr ⟨_, converted, rfl⟩
    · refine ⟨none, parsePolicy_of_no_clause ?_⟩
      intro digits first
      exact clause ⟨digits, first⟩

/-- A parsed policy keeps the tier. -/
theorem tierKept_of_parsePolicy {policy : Option Policy}
    (parsed : parsePolicy policyText = .ok policy) :
    TierKept policyText policy := by
  intro digits first
  rw [first.parsePolicy] at parsed
  obtain ⟨tier, converted, same⟩ := bind_eq_ok.mp parsed
  rw [stoi_eq_ok] at converted
  obtain ⟨small, converts⟩ := converted
  cases same
  refine ⟨{ tier }, rfl, ?_⟩
  rw [converts]
  exact Int32.toInt_ofNat_of_lt small

/-- A load returns normally and keeps the tier exactly when the number of the
first clause of the policy text is an `int`. -/
theorem keepsTier_iff : KeepsTier program ↔
    ∀ digits, FirstClause program.axionPolicyText digits →
      Decimal.value digits < 2 ^ 31 := by
  rw [← parsePolicy_iff]
  constructor
  · intro keeps
    obtain ⟨loaded, returned, _⟩ := keeps.image
    obtain ⟨policy, parsed, _⟩ := loadProgramImage_eq_ok.mp returned
    exact ⟨policy, parsed⟩
  · intro parses
    obtain ⟨policy, parsed⟩ := parses
    have kept := tierKept_of_parsePolicy parsed
    refine ⟨?_, ?_, ?_⟩
    · exact ⟨_, loadProgramImage_eq_ok.mpr ⟨policy, parsed, rfl⟩, kept⟩
    · intro vm
      exact ⟨_, Interpreter.loadProgram_eq_ok.mpr ⟨policy, parsed, rfl⟩, kept⟩
    · intro content path handle loaded file accepted same
      have loads : ∃ vm, handle.vm.loadProgram loaded.program = .ok vm ∧
          vm.state.policy = policy :=
        ⟨_, Interpreter.loadProgram_eq_ok.mpr
          ⟨policy, by rw [same]; exact parsed, rfl⟩, rfl⟩
      obtain ⟨vm, returned, found⟩ := loads
      refine ⟨{ vm, lastTrap := trapToStatus .none }, ?_, ?_⟩
      · simp only [t81vmLoadFile, file, accepted, returned, Bool.true_eq_false,
          if_false]
      · rw [← found] at kept
        exact kept

/-- A program of no instructions with a tier that is no `int`. -/
def tierTooLarge : Program where
  insns := []
  axionPolicyText := text "(tier 2147483648)"
  fits := Nat.zero_le maxInsns

/-- Its image does not load. -/
theorem not_keepsTier_tierTooLarge : ¬ KeepsTier tierTooLarge := by
  intro keeps
  obtain ⟨loaded, returned, _⟩ := keeps.image
  obtain ⟨policy, parsed, _⟩ := loadProgramImage_eq_ok.mp returned
  have thrown : parsePolicy tierTooLarge.axionPolicyText =
      .error .outOfRange := by decide +kernel
  rw [thrown] at parsed
  cases parsed

end T81VM.VM
