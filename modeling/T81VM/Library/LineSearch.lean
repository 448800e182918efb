import T81VM.Library.Regex

/-!
# Search between the ends of a line

An anchored pattern is tried at the beginning of each line, and its match has
to stop at the end of one.  A pattern that starts with a word skips the lines
that do not.
-/

namespace GreedyRegex

variable {α : Type*} [BEq α]

/-- What follows each mark of the input. -/
def behindMarks (mark : α) : List α → List (List α)
  | [] => []
  | head :: tail =>
      if head == mark then tail :: behindMarks mark tail
      else behindMarks mark tail

/-- The input from the beginning of each line; the mark ends a line. -/
def lineStarts (mark : α) (input : List α) : List (List α) :=
  input :: behindMarks mark input

/-- A match stops at the end of a line. -/
def atLineEnd (mark : α) (result : Match α) : Bool :=
  result.rest.head?.all (· == mark)

/-- The preferred match between the ends of a line, in the first line that has
one. -/
def searchLines (mark : α) (pattern : List (Piece α)) (input : List α) :
    Option (Match α) :=
  (lineStarts mark input).findSome? fun rest =>
    (sequenceMatches pattern rest).find? (atLineEnd mark)

variable {mark : α} {pattern pieces : List (Piece α)}
  {input line rest word : List α} {result : Match α}

/-- The preferred match at the beginning is found when it stops well. -/
theorem searchLines_of_prefers (prefers : Prefers pattern input result)
    (stops : atLineEnd mark result = true) :
    searchLines mark pattern input = some result := by
  have here : (sequenceMatches pattern input).find? (atLineEnd mark) =
      some result := by
    obtain ⟨others, whole⟩ := List.head?_eq_some_iff.mp prefers
    rw [whole, List.find?_cons_of_pos stops]
  rw [searchLines, lineStarts, List.findSome?_cons, here]

variable [LawfulBEq α]

/-- The next line begins behind the first mark. -/
theorem behindMarks_append (free : mark ∉ line) :
    behindMarks mark (line ++ mark :: rest) = lineStarts mark rest := by
  induction line with
  | nil =>
      rw [List.nil_append, behindMarks, if_pos (beq_self_eq_true mark)]
      rfl
  | cons head tail induction =>
      obtain ⟨other, later⟩ := List.ne_and_not_mem_of_not_mem_cons free
      have differs : ¬ (head == mark) = true := by
        rw [beq_iff_eq]
        exact Ne.symm other
      rw [List.cons_append, behindMarks, if_neg differs]
      exact induction later

/-- A line that does not start with the word is skipped. -/
theorem searchLines_skip (free : mark ∉ line)
    (other : ¬ word <+: line ++ mark :: rest) :
    searchLines mark (literal word ++ pieces) (line ++ mark :: rest) =
      searchLines mark (literal word ++ pieces) rest := by
  have fails : sequenceMatches (literal word ++ pieces)
      (line ++ mark :: rest) = [] := by
    by_contra matched
    apply other
    apply prefix_of_matches
    rw [ne_eq, List.head?_eq_none_iff]
    exact matched
  rw [searchLines, lineStarts, List.findSome?_cons, fails,
    behindMarks_append free]
  rfl

/-- The lines in front of one that starts with the word. -/
theorem searchLines_skipAll {lines : List (List α)}
    (free : ∀ line ∈ lines, mark ∉ line)
    (others : ∀ line ∈ lines, ∀ behind, ¬ word <+: line ++ behind) :
    searchLines mark (literal word ++ pieces)
        (lines.flatMap (· ++ [mark]) ++ rest) =
      searchLines mark (literal word ++ pieces) rest := by
  induction lines with
  | nil => rfl
  | cons line lines induction =>
      obtain ⟨freeHere, freeLater⟩ := List.forall_mem_cons.mp free
      obtain ⟨otherHere, otherLater⟩ := List.forall_mem_cons.mp others
      rw [List.flatMap_cons, List.append_assoc, List.append_assoc,
        List.singleton_append, searchLines_skip freeHere (otherHere _)]
      exact induction freeLater otherLater

end GreedyRegex
