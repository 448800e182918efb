import Mathlib.Data.List.Basic

/-!
# Leftmost search

Searching a list for the leftmost position where an attempt succeeds.  A text
that is divided into fields by a mark contains a marked word only where a
field is that word.
-/

namespace Scan

variable {α β : Type*}

/-- The result at the leftmost position where the attempt succeeds. -/
def leftmost (attempt : List α → Option β) : List α → Option β
  | [] => attempt []
  | head :: tail =>
      match attempt (head :: tail) with
      | some found => some found
      | none => leftmost attempt tail

/-- The input from the leftmost occurrence of the word. -/
def find [BEq α] (word input : List α) : Option (List α) :=
  leftmost (fun rest => if word.isPrefixOf rest then some rest else none) input

/-- Each field followed by the mark, and a rest. -/
def delimit (mark : α) (fields : List (List α)) (rest : List α) : List α :=
  fields.foldr (fun field later => field ++ mark :: later) rest

/-- The leftmost place of the text `front ++ here` with the property. -/
structure First (holds : List α → Prop) (front here : List α) : Prop where
  found : holds here
  earlier : ∀ left right, left ++ right = front ++ here →
    left.length < front.length → ¬ holds right

variable {attempt : List α → Option β} {found : β} {mark : α}
  {word field first rest skipped : List α} {fields : List (List α)}

/-! ## The leftmost success -/

theorem leftmost_of_some {input : List α} (here : attempt input = some found) :
    leftmost attempt input = some found := by
  cases input with
  | nil => exact here
  | cons head tail => rw [leftmost, here]

theorem leftmost_cons {head : α} {tail : List α}
    (fails : attempt (head :: tail) = none) :
    leftmost attempt (head :: tail) = leftmost attempt tail := by
  rw [leftmost, fails]

theorem First.cons {holds : List α → Prop} {head : α} {front here : List α}
    (first : First holds front here)
    (fails : ¬ holds (head :: (front ++ here))) :
    First holds (head :: front) here := by
  constructor
  · exact first.found
  · intro left right same shorter
    cases left with
    | nil =>
        rw [List.nil_append] at same
        rwa [same]
    | cons other left =>
        obtain ⟨_, same⟩ := List.cons_eq_cons.mp same
        exact first.earlier left right same (Nat.lt_of_succ_lt_succ shorter)

/-- There is at most one leftmost place. -/
theorem First.unique {holds : List α → Prop} {front here left right : List α}
    (one : First holds front here) (other : First holds left right)
    (same : front ++ here = left ++ right) : front = left ∧ here = right := by
  have notShorter : ¬ front.length < left.length := fun shorter =>
    other.earlier front here same shorter one.found
  have notLonger : ¬ left.length < front.length := fun shorter =>
    one.earlier left right same.symm shorter other.found
  apply List.append_inj same
  omega

/-- If the property holds somewhere, there is a leftmost place. -/
theorem First.exists {holds : List α → Prop} {left right : List α}
    (somewhere : holds right) :
    ∃ front here, left ++ right = front ++ here ∧ First holds front here := by
  induction left with
  | nil => exact ⟨[], right, rfl, somewhere, by simp⟩
  | cons head left induction =>
      by_cases already : holds (head :: (left ++ right))
      · exact ⟨[], head :: (left ++ right), rfl, already, by simp⟩
      · obtain ⟨front, here, whole, first⟩ := induction
        rw [whole] at already
        refine ⟨head :: front, here, ?_, first.cons already⟩
        rw [List.cons_append, whole, List.cons_append]

/-- A search succeeds with what the attempt gives at its leftmost success. -/
theorem leftmost_eq_some_iff {input : List α} :
    leftmost attempt input = some found ↔
      ∃ front here, input = front ++ here ∧
        First (fun rest => attempt rest ≠ none) front here ∧
        attempt here = some found := by
  constructor
  · intro search
    induction input with
    | nil =>
        rw [leftmost] at search
        have start : First (fun rest => attempt rest ≠ none) [] [] :=
          ⟨by simp [search], by simp⟩
        exact ⟨[], [], rfl, start, search⟩
    | cons head tail induction =>
        rw [leftmost] at search
        cases here : attempt (head :: tail) with
        | some value =>
            rw [here] at search
            have start : First (fun rest => attempt rest ≠ none) []
                (head :: tail) := ⟨by simp [here], by simp⟩
            exact ⟨[], head :: tail, rfl, start, here.trans search⟩
        | none =>
            rw [here] at search
            obtain ⟨front, rest, rfl, first, attempted⟩ := induction search
            refine ⟨head :: front, rest, rfl, first.cons ?_, attempted⟩
            exact fun succeeds => succeeds here
  · intro ⟨front, here, whole, first, attempted⟩
    subst whole
    induction front with
    | nil => exact leftmost_of_some attempted
    | cons head front induction =>
        have fails : ¬ attempt (head :: (front ++ here)) ≠ none :=
          first.earlier [] _ rfl (Nat.succ_pos _)
        rw [List.cons_append, leftmost_cons (not_not.mp fails)]
        apply induction
        refine ⟨first.found, ?_⟩
        intro left right same shorter
        apply first.earlier (head :: left) right
        · rw [List.cons_append, same, List.cons_append]
        · exact Nat.succ_lt_succ shorter

/-! ## Marked words -/

/-- A mark behind a list without marks. -/
theorem append_of_marked {front later skipped : List α} (free : mark ∉ skipped)
    (same : front ++ mark :: later = skipped ++ rest) :
    ∃ more, front = skipped ++ more ∧ more ++ mark :: later = rest := by
  rcases List.append_eq_append_iff.mp same with
    ⟨more, split, behind⟩ | ⟨more, split, remaining⟩
  · cases more with
    | nil =>
        rw [List.append_nil] at split
        rw [List.nil_append] at behind
        exact ⟨[], by rw [split, List.append_nil], behind⟩
    | cons first more =>
        obtain ⟨rfl, _⟩ := List.cons_eq_cons.mp behind
        exact absurd (split ▸ List.mem_append_right _ List.mem_cons_self) free
  · exact ⟨more, split, remaining.symm⟩

/-- A list splits in one way at its leftmost mark. -/
theorem eq_of_marked {one other later : List α} (free : mark ∉ one)
    (otherFree : mark ∉ other)
    (same : one ++ mark :: rest = other ++ mark :: later) :
    one = other ∧ rest = later := by
  obtain ⟨more, split, behind⟩ := append_of_marked otherFree same
  cases more with
  | nil =>
      rw [List.append_nil] at split
      exact ⟨split, (List.cons_eq_cons.mp behind).2⟩
  | cons first more =>
      obtain ⟨rfl, _⟩ := List.cons_eq_cons.mp behind
      exact absurd (split ▸ List.mem_append_right _ List.mem_cons_self) free

/-- Positions whose first element cannot start a success are skipped. -/
theorem leftmost_append (rest : List α)
    (fails : ∀ head ∈ skipped, ∀ tail, attempt (head :: tail) = none) :
    leftmost attempt (skipped ++ rest) = leftmost attempt rest := by
  induction skipped with
  | nil => rfl
  | cons head tail induction =>
      rw [List.cons_append, leftmost_cons (fails head List.mem_cons_self _)]
      apply induction
      intro other member
      exact fails other (List.mem_cons_of_mem head member)

/-- Two words without the mark that start the same text up to a mark. -/
theorem eq_of_marked_isPrefix (wordFree : mark ∉ word) (fieldFree : mark ∉ field)
    (starts : word ++ [mark] <+: field ++ mark :: rest) : word = field := by
  induction word generalizing field with
  | nil =>
      cases field with
      | nil => rfl
      | cons head tail =>
          obtain ⟨same, _⟩ := List.cons_prefix_cons.mp starts
          exact absurd (same ▸ List.mem_cons_self) fieldFree
  | cons letter letters induction =>
      cases field with
      | nil =>
          obtain ⟨same, _⟩ := List.cons_prefix_cons.mp starts
          exact absurd (same ▸ List.mem_cons_self) wordFree
      | cons head tail =>
          obtain ⟨same, later⟩ := List.cons_prefix_cons.mp starts
          have equal := induction (List.not_mem_of_not_mem_cons wordFree)
            (List.not_mem_of_not_mem_cons fieldFree) later
          rw [same, equal]

/-- An attempt that needs a marked word skips the fields that differ from the
word. -/
theorem leftmost_delimit
    (needs : ∀ input, attempt input ≠ none →
      mark :: (word ++ [mark]) <+: input)
    (wordFree : mark ∉ word) (firstFree : mark ∉ first)
    (others : ∀ field ∈ fields, mark ∉ field ∧ field ≠ word) :
    leftmost attempt
        (delimit mark (first :: fields) (word ++ mark :: rest)) =
      leftmost attempt (mark :: (word ++ mark :: rest)) := by
  have skip : ∀ {text later : List α}, mark ∉ text →
      leftmost attempt (text ++ later) = leftmost attempt later := by
    intro text later free
    apply leftmost_append
    intro head member tail
    by_contra succeeds
    obtain ⟨same, _⟩ := List.cons_prefix_cons.mp (needs _ succeeds)
    exact free (same ▸ member)
  induction fields generalizing first with
  | nil => exact skip firstFree
  | cons field fields induction =>
      obtain ⟨fieldFree, different⟩ := others field List.mem_cons_self
      have fails : attempt (mark :: delimit mark (field :: fields)
          (word ++ mark :: rest)) = none := by
        by_contra succeeds
        obtain ⟨_, starts⟩ := List.cons_prefix_cons.mp (needs _ succeeds)
        exact different (eq_of_marked_isPrefix wordFree fieldFree starts).symm
      have step : leftmost attempt (mark :: delimit mark (field :: fields)
          (word ++ mark :: rest)) =
          leftmost attempt (delimit mark (field :: fields)
            (word ++ mark :: rest)) := leftmost_cons fails
      have here : leftmost attempt (delimit mark (first :: field :: fields)
          (word ++ mark :: rest)) =
          leftmost attempt (mark :: delimit mark (field :: fields)
            (word ++ mark :: rest)) := skip firstFree
      rw [here, step]
      apply induction fieldFree
      intro other member
      exact others other (List.mem_cons_of_mem field member)

section Find

variable [BEq α] [LawfulBEq α]

theorem find_of_isPrefix (starts : word <+: rest) : find word rest = some rest := by
  apply leftmost_of_some
  rw [if_pos (List.isPrefixOf_iff_prefix.mpr starts)]

/-- The leftmost occurrence of one element. -/
theorem find_one (free : mark ∉ skipped) :
    find [mark] (skipped ++ mark :: rest) = some (mark :: rest) := by
  have skip := @leftmost_append _ _
    (fun rest => if [mark].isPrefixOf rest then some rest else none)
    skipped (mark :: rest) (by
      intro head member tail
      have differs : ¬ [mark] <+: head :: tail := by
        intro starts
        obtain ⟨same, _⟩ := List.cons_prefix_cons.mp starts
        exact free (same ▸ member)
      rw [if_neg]
      rwa [List.isPrefixOf_iff_prefix])
  rw [find, skip]
  exact find_of_isPrefix (List.cons_prefix_cons.mpr ⟨rfl, List.nil_prefix⟩)

/-- The leftmost occurrence of a marked word. -/
theorem find_marked (wordFree : mark ∉ word) (firstFree : mark ∉ first)
    (others : ∀ field ∈ fields, mark ∉ field ∧ field ≠ word) :
    find (mark :: (word ++ [mark]))
        (delimit mark (first :: fields) (word ++ mark :: rest)) =
      some (mark :: (word ++ mark :: rest)) := by
  rw [find, leftmost_delimit _ wordFree firstFree others]
  · apply find_of_isPrefix
    exact ⟨rest, by simp⟩
  · intro input succeeds
    by_contra differs
    rw [if_neg (by rwa [List.isPrefixOf_iff_prefix])] at succeeds
    exact succeeds rfl

/-- An element that does not occur is not found. -/
theorem find_eq_none (free : mark ∉ rest) : find [mark] rest = none := by
  induction rest with
  | nil => rfl
  | cons head tail induction =>
      have differs : ¬ [mark] <+: head :: tail := by
        intro starts
        obtain ⟨same, _⟩ := List.cons_prefix_cons.mp starts
        exact free (same ▸ List.mem_cons_self)
      rw [find, leftmost_cons]
      · exact induction (List.not_mem_of_not_mem_cons free)
      · rw [if_neg]
        rwa [List.isPrefixOf_iff_prefix]

/-- A search for a word finds its leftmost occurrence. -/
theorem find_eq_some_iff {input : List α} :
    find word input = some rest ↔
      ∃ front, input = front ++ rest ∧ First (word <+: ·) front rest := by
  have occurs : ∀ later : List α,
      (if word.isPrefixOf later then some later else none) ≠ none ↔
        word <+: later := by
    intro later
    rw [← List.isPrefixOf_iff_prefix]
    split <;> simp_all
  rw [find, leftmost_eq_some_iff]
  simp only [occurs]
  constructor
  · intro ⟨front, here, whole, first, attempted⟩
    rw [if_pos (List.isPrefixOf_iff_prefix.mpr first.found)] at attempted
    cases attempted
    exact ⟨front, whole, first⟩
  · intro ⟨front, whole, first⟩
    refine ⟨front, rest, whole, first, ?_⟩
    rw [if_pos (List.isPrefixOf_iff_prefix.mpr first.found)]

/-- A search for one element skips what is free of it. -/
theorem find_one_eq_some_iff {input : List α} :
    find [mark] input = some rest ↔
      ∃ skipped later, input = skipped ++ mark :: later ∧ mark ∉ skipped ∧
        rest = mark :: later := by
  constructor
  · intro search
    by_cases member : mark ∈ input
    · obtain ⟨skipped, later, rfl, free⟩ := List.eq_append_cons_of_mem member
      rw [find_one free] at search
      cases search
      exact ⟨skipped, later, rfl, free, rfl⟩
    · rw [find_eq_none member] at search
      cases search
  · intro ⟨skipped, later, whole, free, same⟩
    rw [whole, same]
    exact find_one free

theorem find_one_eq_none_iff {input : List α} :
    find [mark] input = none ↔ mark ∉ input := by
  constructor
  · intro search member
    obtain ⟨skipped, later, rfl, free⟩ := List.eq_append_cons_of_mem member
    rw [find_one free] at search
    cases search
  · exact find_eq_none

end Find

end Scan
