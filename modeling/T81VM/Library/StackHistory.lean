import Mathlib.Data.List.Basic

/-!
# Histories of a stack

A stack that changes by one entry at a time, followed over a run.  An entry
stays where it is for as long as the stack is deeper than it was below the
entry, and every entry was pushed at some moment of the run.
-/

namespace StackHistory

variable {α : Type*}

/-- One move of a stack, the most recent entry first. -/
inductive Move : List α → List α → Prop where
  | kept (stack : List α) : Move stack stack
  | pushed (entry : α) (stack : List α) : Move stack (entry :: stack)
  | popped (entry : α) (stack : List α) : Move (entry :: stack) stack

/-- A part of the stack survives a move that leaves the stack as deep. -/
theorem Move.suffix {before after part : List α} (move : Move before after)
    (deep : part.length ≤ after.length) (suffix : part <:+ before) :
    part <:+ after := by
  cases move with
  | kept => exact suffix
  | pushed entry => exact suffix.trans (List.suffix_cons entry before)
  | popped entry =>
      rcases List.suffix_cons_iff.mp suffix with whole | below
      · rw [whole, List.length_cons] at deep
        omega
      · exact below

variable {history : Nat → List α} {first last : Nat}

/-- A part of the stack survives while the stack is as deep. -/
theorem suffix_of_deep {part : List α} (order : first ≤ last)
    (moves : ∀ index, first ≤ index → index < last →
      Move (history index) (history (index + 1)))
    (deep : ∀ index, first ≤ index → index ≤ last →
      part.length ≤ (history index).length)
    (suffix : part <:+ history first) : part <:+ history last := by
  induction order with
  | refl => exact suffix
  | @step last order induction =>
      have earlier : part <:+ history last := by
        apply induction
        · intro index after before
          exact moves index after (by omega)
        · intro index after before
          exact deep index after (by omega)
      have order : first ≤ last := order
      have move := moves last order (Nat.lt_succ_self last)
      exact move.suffix (deep (last + 1) (by omega) (Nat.le_refl _)) earlier

/-- The entry at the top of a part of the stack was pushed at `first`, and
the stack has been deeper since. -/
structure PushedAt (history : Nat → List α) (entry : α) (below : List α)
    (first last : Nat) : Prop where
  order : first < last
  before : history first = below
  after : history (first + 1) = entry :: below
  deep : ∀ index, first < index → index ≤ last →
    below.length < (history index).length

/-- An entry that survives a move has been there since it was pushed. -/
theorem PushedAt.extend {entry : α} {below : List α}
    (pushed : PushedAt history entry below first last)
    (suffix : entry :: below <:+ history (last + 1)) :
    PushedAt history entry below first (last + 1) := by
  refine ⟨Nat.lt_succ_of_lt pushed.order, pushed.before,
    pushed.after, ?_⟩
  intro index after before
  rcases Nat.lt_or_eq_of_le before with earlier | same
  · exact pushed.deep index after (Nat.le_of_lt_succ earlier)
  · rw [same]
    exact suffix.length_le

/-- Every entry of a stack that started empty was pushed. -/
theorem exists_pushedAt (empty : history 0 = [])
    (moves : ∀ index, index < last →
      Move (history index) (history (index + 1)))
    {entry : α} {below : List α} (suffix : entry :: below <:+ history last) :
    ∃ first, PushedAt history entry below first last := by
  induction last with
  | zero =>
      rw [empty] at suffix
      exact absurd suffix.length_le (by simp)
  | succ last induction =>
      have earlier : entry :: below <:+ history last →
          ∃ first, PushedAt history entry below first (last + 1) := by
        intro there
        obtain ⟨first, pushed⟩ := induction
          (fun index before => moves index (by omega)) there
        exact ⟨first, pushed.extend suffix⟩
      have move := moves last (Nat.lt_succ_self last)
      generalize before : history last = old at move earlier
      generalize after : history (last + 1) = new at move suffix
      cases move with
      | kept => exact earlier suffix
      | popped other => exact earlier (suffix.trans (List.suffix_cons other _))
      | pushed other =>
          rcases List.suffix_cons_iff.mp suffix with whole | there
          · cases whole
            refine ⟨last, Nat.lt_succ_self last, before, after, ?_⟩
            intro index above bounded
            have same : index = last + 1 := by omega
            rw [same, after]
            exact Nat.lt_succ_self _
          · exact earlier there

end StackHistory
