import T81VM.Library.Scan

/-!
# Backtracking search with greedy character classes

A pattern is a sequence of pieces.  Matching a pattern against an input lists
every way it can succeed, most preferred first: a greedy piece prefers the
longest run, as in ECMAScript.  A search takes the leftmost position with a
match and, there, the most preferred one.
-/

namespace GreedyRegex

variable {α : Type*}

/-- A character class. -/
abbrev Class (α : Type*) := α → Bool

/-- One piece of a pattern.  A captured piece reports the run it consumed. -/
inductive Piece (α : Type*) where
  | one (cls : Class α)
  | optional (cls : Class α)
  | star (cls : Class α)
  | plus (cls : Class α)
  | capture (pieces : List (Piece α))

/-- The ways to consume a greedy run of a class, longest first, each with
the input left over. -/
def runs (cls : Class α) : List α → List (List α × List α)
  | [] => [([], [])]
  | head :: tail =>
      if cls head then
        (runs cls tail).map (fun (consumed, rest) => (head :: consumed, rest))
          ++ [([], head :: tail)]
      else
        [([], head :: tail)]

/-- One way a pattern matched a prefix. -/
structure Match (α : Type*) where
  consumed : List α
  captures : List (List α)
  rest : List α

mutual

/-- Every match of one piece at the start of the input, most preferred
first. -/
def Piece.matches : Piece α → List α → List (Match α)
  | .one cls, head :: tail =>
      if cls head then [⟨[head], [], tail⟩] else []
  | .one _, [] => []
  | .optional cls, head :: tail =>
      if cls head then [⟨[head], [], tail⟩, ⟨[], [], head :: tail⟩]
      else [⟨[], [], head :: tail⟩]
  | .optional _, [] => [⟨[], [], []⟩]
  | .star cls, input =>
      (runs cls input).map fun (consumed, rest) => ⟨consumed, [], rest⟩
  | .plus cls, input =>
      ((runs cls input).filter fun (consumed, _) => !consumed.isEmpty).map
        fun (consumed, rest) => ⟨consumed, [], rest⟩
  | .capture pieces, input =>
      (sequenceMatches pieces input).map fun result =>
        { result with captures := result.consumed :: result.captures }

/-- Every match of a sequence of pieces, most preferred first. -/
def sequenceMatches : List (Piece α) → List α → List (Match α)
  | [], input => [⟨[], [], input⟩]
  | piece :: pieces, input =>
      (piece.matches input).flatMap fun first =>
        (sequenceMatches pieces first.rest).map fun later =>
          { consumed := first.consumed ++ later.consumed
            captures := first.captures ++ later.captures
            rest := later.rest }

end

/-- `regex_search`: the preferred match at the leftmost position that has
one. -/
def search (pattern : List (Piece α)) (input : List α) : Option (Match α) :=
  Scan.leftmost (fun rest => (sequenceMatches pattern rest).head?) input

/-- The pieces that match exactly one word. -/
def literal [BEq α] (word : List α) : List (Piece α) :=
  word.map fun letter => .one fun element => element == letter

variable {cls : Class α} {pieces pattern : List (Piece α)}
  {piece : Piece α} {input run rest word : List α} {result later : Match α}

/-! ## One step of a match -/

section Equations

variable {head : α} {tail : List α}

theorem runs_nil : runs cls [] = [([], [])] := rfl

theorem runs_cons_of_inside (inside : cls head = true) :
    runs cls (head :: tail) =
      (runs cls tail).map (fun taken => (head :: taken.1, taken.2))
        ++ [([], head :: tail)] :=
  if_pos inside

theorem runs_cons_of_outside (outside : ¬ cls head = true) :
    runs cls (head :: tail) = [([], head :: tail)] :=
  if_neg outside

theorem matches_one_of_inside (inside : cls head = true) :
    (Piece.one cls).matches (head :: tail) = [⟨[head], [], tail⟩] :=
  if_pos inside

theorem matches_one_of_outside (outside : ¬ cls head = true) :
    (Piece.one cls).matches (head :: tail) = [] :=
  if_neg outside

theorem matches_one_nil : (Piece.one cls).matches [] = [] := rfl

theorem matches_optional_nil :
    (Piece.optional cls).matches [] = [⟨[], [], []⟩] := rfl

theorem matches_optional_of_inside (inside : cls head = true) :
    (Piece.optional cls).matches (head :: tail) =
      [⟨[head], [], tail⟩, ⟨[], [], head :: tail⟩] :=
  if_pos inside

theorem matches_optional_of_outside (outside : ¬ cls head = true) :
    (Piece.optional cls).matches (head :: tail) = [⟨[], [], head :: tail⟩] :=
  if_neg outside

theorem matches_star :
    (Piece.star cls).matches input =
      (runs cls input).map fun taken => ⟨taken.1, [], taken.2⟩ := rfl

theorem matches_plus :
    (Piece.plus cls).matches input =
      ((runs cls input).filter fun taken => !taken.1.isEmpty).map
        fun taken => ⟨taken.1, [], taken.2⟩ := rfl

theorem matches_capture :
    (Piece.capture pieces).matches input =
      (sequenceMatches pieces input).map fun result =>
        { result with captures := result.consumed :: result.captures } := rfl

theorem sequenceMatches_nil :
    sequenceMatches [] input = [⟨[], [], input⟩] := rfl

theorem sequenceMatches_cons :
    sequenceMatches (piece :: pieces) input =
      (piece.matches input).flatMap fun first =>
        (sequenceMatches pieces first.rest).map fun later =>
          { consumed := first.consumed ++ later.consumed
            captures := first.captures ++ later.captures
            rest := later.rest } := rfl

end Equations

/-! ## The preferred match -/

/-- The pattern prefers this match at the start of the input. -/
def Prefers (pattern : List (Piece α)) (input : List α)
    (result : Match α) : Prop :=
  (sequenceMatches pattern input).head? = some result

theorem prefers_nil : Prefers [] input ⟨[], [], input⟩ := rfl

theorem head?_flatMap {β γ : Type*} {list : List β} {next : β → List γ}
    {value : β} {final : γ} (head : list.head? = some value)
    (nextHead : (next value).head? = some final) :
    (list.flatMap next).head? = some final := by
  cases list with
  | nil => cases head
  | cons first others =>
      cases head
      rw [List.flatMap_cons, List.head?_append, nextHead]
      rfl

/-- The preferred match of a sequence goes through the preferred match of its
first piece when the others match after that. -/
theorem Prefers.cons (head : (piece.matches input).head? = some result)
    (tail : Prefers pieces result.rest later) :
    Prefers (piece :: pieces) input
      { consumed := result.consumed ++ later.consumed
        captures := result.captures ++ later.captures
        rest := later.rest } := by
  rw [Prefers, sequenceMatches_cons]
  apply head?_flatMap head
  rw [List.head?_map, tail]
  rfl

theorem Prefers.one {head : α} (inside : cls head = true)
    (tail : Prefers pieces rest later) :
    Prefers (.one cls :: pieces) (head :: rest)
      { later with consumed := head :: later.consumed } := by
  have here : ((Piece.one cls).matches (head :: rest)).head? =
      some ⟨[head], [], rest⟩ := by
    rw [matches_one_of_inside inside]
    rfl
  exact Prefers.cons here tail

/-- A greedy run takes every element of the class. -/
theorem runs_head (inside : ∀ element ∈ run, cls element = true)
    (stops : ∀ element ∈ rest.head?, cls element = false) :
    (runs cls (run ++ rest)).head? = some (run, rest) := by
  induction run with
  | nil =>
      cases rest with
      | nil => rfl
      | cons head tail =>
          have outside := Bool.eq_false_iff.mp (stops head rfl)
          rw [List.nil_append, runs_cons_of_outside outside]
          rfl
  | cons head tail induction =>
      have later := induction fun element member =>
        inside element (List.mem_cons_of_mem head member)
      rw [List.cons_append,
        runs_cons_of_inside (inside head List.mem_cons_self),
        List.head?_append, List.head?_map, later]
      rfl

theorem Prefers.star (inside : ∀ element ∈ run, cls element = true)
    (stops : ∀ element ∈ rest.head?, cls element = false)
    (tail : Prefers pieces rest later) :
    Prefers (.star cls :: pieces) (run ++ rest)
      { later with consumed := run ++ later.consumed } := by
  have here : ((Piece.star cls).matches (run ++ rest)).head? =
      some ⟨run, [], rest⟩ := by
    rw [matches_star, List.head?_map, runs_head inside stops]
    rfl
  exact Prefers.cons here tail

theorem Prefers.plus (nonempty : run ≠ [])
    (inside : ∀ element ∈ run, cls element = true)
    (stops : ∀ element ∈ rest.head?, cls element = false)
    (tail : Prefers pieces rest later) :
    Prefers (.plus cls :: pieces) (run ++ rest)
      { later with consumed := run ++ later.consumed } := by
  have here : ((Piece.plus cls).matches (run ++ rest)).head? =
      some ⟨run, [], rest⟩ := by
    have longest := runs_head inside stops
    rw [matches_plus, List.head?_map]
    cases all : runs cls (run ++ rest) with
    | nil =>
        rw [all] at longest
        cases longest
    | cons first others =>
        rw [all] at longest
        cases longest
        rw [List.filter_cons_of_pos (by simpa using nonempty)]
        rfl
  exact Prefers.cons here tail

/-- An optional piece takes an element of the class. -/
theorem Prefers.present {head : α} (inside : cls head = true)
    (tail : Prefers pieces rest later) :
    Prefers (.optional cls :: pieces) (head :: rest)
      { later with consumed := head :: later.consumed } := by
  have here : ((Piece.optional cls).matches (head :: rest)).head? =
      some ⟨[head], [], rest⟩ := by
    rw [matches_optional_of_inside inside]
    rfl
  exact Prefers.cons here tail

theorem Prefers.absent (stops : ∀ element ∈ rest.head?, cls element = false)
    (tail : Prefers pieces rest later) :
    Prefers (.optional cls :: pieces) rest later := by
  have here : ((Piece.optional cls).matches rest).head? =
      some ⟨[], [], rest⟩ := by
    cases rest with
    | nil => rfl
    | cons head tail =>
        have outside := Bool.eq_false_iff.mp (stops head rfl)
        rw [matches_optional_of_outside outside]
        rfl
  exact Prefers.cons here tail

theorem Prefers.capture {captured : List (Piece α)}
    (inner : Prefers captured input result)
    (tail : Prefers pieces result.rest later) :
    Prefers (.capture captured :: pieces) input
      { consumed := result.consumed ++ later.consumed
        captures := result.consumed :: result.captures ++ later.captures
        rest := later.rest } := by
  have here : ((Piece.capture captured).matches input).head? =
      some { result with captures := result.consumed :: result.captures } := by
    rw [matches_capture, List.head?_map, inner]
    rfl
  exact Prefers.cons here tail

section Literal

variable [BEq α] [LawfulBEq α]

theorem Prefers.literal (word : List α) (tail : Prefers pieces rest later) :
    Prefers (literal word ++ pieces) (word ++ rest)
      { later with consumed := word ++ later.consumed } := by
  induction word with
  | nil => exact tail
  | cons letter letters induction => exact .one (beq_self_eq_true letter) induction

/-- A pattern that starts with a word matches only where the word stands. -/
theorem prefix_of_matches
    (matched : (sequenceMatches (GreedyRegex.literal word ++ pieces) input).head?
      ≠ none) :
    word <+: input := by
  induction word generalizing input with
  | nil => exact List.nil_prefix
  | cons letter letters induction =>
      rw [GreedyRegex.literal, List.map_cons, List.cons_append,
        sequenceMatches_cons] at matched
      cases input with
      | nil => exact absurd rfl matched
      | cons head tail =>
          by_cases same : head = letter
          · subst same
            apply List.cons_prefix_cons.mpr ⟨rfl, ?_⟩
            apply induction
            intro none
            apply matched
            have empty := List.head?_eq_none_iff.mp none
            rw [GreedyRegex.literal] at empty
            have taken : (Piece.one fun element => element == head).matches
                (head :: tail) = [⟨[head], [], tail⟩] :=
              matches_one_of_inside (beq_self_eq_true head)
            rw [taken]
            simp [empty]
          · have refused : (Piece.one fun element => element == letter).matches
                (head :: tail) = [] :=
              matches_one_of_outside (by simpa using same)
            rw [refused] at matched
            exact absurd rfl matched

/-- The search for a pattern that starts with a marked word skips the fields
that differ from the word. -/
theorem search_marked {mark : α} {first : List α} {fields : List (List α)}
    (wordFree : mark ∉ word) (firstFree : mark ∉ first)
    (others : ∀ field ∈ fields, mark ∉ field ∧ field ≠ word)
    (found : Prefers (GreedyRegex.literal (mark :: (word ++ [mark])) ++ pieces)
      (mark :: (word ++ mark :: rest)) result) :
    search (GreedyRegex.literal (mark :: (word ++ [mark])) ++ pieces)
        (Scan.delimit mark (first :: fields) (word ++ mark :: rest)) =
      some result := by
  rw [search, Scan.leftmost_delimit _ wordFree firstFree others]
  · exact Scan.leftmost_of_some found
  · intro input matched
    exact prefix_of_matches matched

end Literal

/-! ## What a pattern consumes -/

/-- Some match of the pattern leaves this rest of the input. -/
def Leaves (pattern : List (Piece α)) (input rest : List α) : Prop :=
  ∃ result ∈ sequenceMatches pattern input, result.rest = rest

theorem matches_iff_leaves :
    (sequenceMatches pattern input).head? ≠ none ↔
      ∃ rest, Leaves pattern input rest := by
  constructor
  · intro matched
    obtain ⟨result, head⟩ := Option.ne_none_iff_exists'.mp matched
    exact ⟨result.rest, result, List.mem_of_head? head, rfl⟩
  · intro ⟨rest, result, member, _⟩ none
    rw [List.head?_eq_none_iff.mp none] at member
    cases member

theorem mem_runs : (run, rest) ∈ runs cls input ↔
    input = run ++ rest ∧ ∀ element ∈ run, cls element = true := by
  induction input generalizing run with
  | nil =>
      rw [runs_nil, List.mem_singleton, Prod.mk.injEq,
        @eq_comm _ [] (run ++ rest), List.append_eq_nil_iff]
      constructor
      · intro ⟨empty, ends⟩
        refine ⟨⟨empty, ends⟩, ?_⟩
        simp [empty]
      · exact And.left
  | cons head tail induction =>
      have stop : (run, rest) ∈ [(([] : List α), head :: tail)] ↔
          run = [] ∧ rest = head :: tail := by
        rw [List.mem_singleton, Prod.mk.injEq]
      by_cases inside : cls head = true
      · rw [runs_cons_of_inside inside, List.mem_append, stop, List.mem_map]
        constructor
        · intro taken
          rcases taken with ⟨⟨longer, later⟩, member, same⟩ | ⟨rfl, rfl⟩
          · cases same
            obtain ⟨whole, all⟩ := induction.mp member
            rw [whole]
            exact ⟨rfl, List.forall_mem_cons.mpr ⟨inside, all⟩⟩
          · exact ⟨rfl, by simp⟩
        · intro ⟨whole, all⟩
          cases run with
          | nil => exact .inr ⟨rfl, whole.symm⟩
          | cons first run =>
              obtain ⟨rfl, remaining⟩ := List.cons_eq_cons.mp whole
              obtain ⟨_, others⟩ := List.forall_mem_cons.mp all
              exact .inl ⟨(run, rest), induction.mpr ⟨remaining, others⟩, rfl⟩
      · rw [runs_cons_of_outside inside, stop]
        constructor
        · intro ⟨empty, ends⟩
          subst empty
          exact ⟨ends.symm, by simp⟩
        · intro ⟨whole, all⟩
          cases run with
          | nil => exact ⟨rfl, whole.symm⟩
          | cons first run =>
              obtain ⟨rfl, _⟩ := List.cons_eq_cons.mp whole
              exact absurd (all head List.mem_cons_self) inside

@[simp] theorem leaves_nil : Leaves [] input rest ↔ input = rest := by
  simp [Leaves, sequenceMatches_nil]

theorem leaves_cons : Leaves (piece :: pieces) input rest ↔
    ∃ first ∈ piece.matches input, Leaves pieces first.rest rest := by
  simp only [Leaves, sequenceMatches_cons, List.mem_flatMap, List.mem_map]
  constructor
  · intro ⟨_, ⟨first, member, later, last, rfl⟩, ends⟩
    exact ⟨first, member, later, last, ends⟩
  · intro ⟨first, member, later, last, ends⟩
    exact ⟨_, ⟨first, member, later, last, rfl⟩, ends⟩

theorem leaves_one : Leaves (.one cls :: pieces) input rest ↔
    ∃ head middle, input = head :: middle ∧ cls head = true ∧
      Leaves pieces middle rest := by
  rw [leaves_cons]
  cases input with
  | nil => simp [matches_one_nil]
  | cons head tail =>
      by_cases inside : cls head = true
      · simp [matches_one_of_inside inside, inside]
      · simp [matches_one_of_outside inside, inside]

theorem leaves_optional : Leaves (.optional cls :: pieces) input rest ↔
    Leaves pieces input rest ∨
      ∃ head middle, input = head :: middle ∧ cls head = true ∧
        Leaves pieces middle rest := by
  rw [leaves_cons]
  cases input with
  | nil => simp [matches_optional_nil]
  | cons head tail =>
      by_cases inside : cls head = true
      · simp [matches_optional_of_inside inside, inside, or_comm]
      · simp [matches_optional_of_outside inside, inside]

theorem leaves_star : Leaves (.star cls :: pieces) input rest ↔
    ∃ run middle, input = run ++ middle ∧
      (∀ element ∈ run, cls element = true) ∧ Leaves pieces middle rest := by
  rw [leaves_cons]
  simp only [matches_star, List.mem_map, Prod.exists]
  constructor
  · intro ⟨_, ⟨run, middle, member, rfl⟩, later⟩
    obtain ⟨whole, inside⟩ := mem_runs.mp member
    exact ⟨run, middle, whole, inside, later⟩
  · intro ⟨run, middle, whole, inside, later⟩
    exact ⟨_, ⟨run, middle, mem_runs.mpr ⟨whole, inside⟩, rfl⟩, later⟩

theorem leaves_plus : Leaves (.plus cls :: pieces) input rest ↔
    ∃ run middle, input = run ++ middle ∧ run ≠ [] ∧
      (∀ element ∈ run, cls element = true) ∧ Leaves pieces middle rest := by
  rw [leaves_cons]
  simp only [matches_plus, List.mem_map, List.mem_filter, Prod.exists]
  constructor
  · intro ⟨_, ⟨run, middle, ⟨member, nonempty⟩, rfl⟩, later⟩
    obtain ⟨whole, inside⟩ := mem_runs.mp member
    exact ⟨run, middle, whole, by simpa using nonempty, inside, later⟩
  · intro ⟨run, middle, whole, nonempty, inside, later⟩
    exact ⟨_, ⟨run, middle, ⟨mem_runs.mpr ⟨whole, inside⟩,
      by simpa using nonempty⟩, rfl⟩, later⟩

theorem leaves_capture {captured : List (Piece α)} :
    Leaves (.capture captured :: pieces) input rest ↔
      ∃ middle, Leaves captured input middle ∧ Leaves pieces middle rest := by
  rw [leaves_cons]
  simp only [matches_capture, List.mem_map]
  constructor
  · intro ⟨_, ⟨result, member, rfl⟩, later⟩
    exact ⟨result.rest, ⟨result, member, rfl⟩, later⟩
  · intro ⟨_, ⟨result, member, rfl⟩, later⟩
    exact ⟨_, ⟨result, member, rfl⟩, later⟩

theorem leaves_literal [BEq α] [LawfulBEq α] :
    Leaves (literal word ++ pieces) input rest ↔
      ∃ middle, input = word ++ middle ∧ Leaves pieces middle rest := by
  induction word generalizing input with
  | nil => simp [literal]
  | cons letter letters induction =>
      rw [literal, List.map_cons, List.cons_append, leaves_one]
      constructor
      · intro ⟨head, middle, whole, same, later⟩
        obtain ⟨last, rfl, ends⟩ := induction.mp later
        rw [whole, eq_of_beq same]
        exact ⟨last, rfl, ends⟩
      · intro ⟨last, whole, ends⟩
        exact ⟨letter, letters ++ last, whole, beq_self_eq_true letter,
          induction.mpr ⟨last, rfl, ends⟩⟩

end GreedyRegex
