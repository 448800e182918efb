import Mathlib.Data.List.Basic

/-!
# A stack in a memory

A last-in first-out list is kept in the cells from a cursor up to a limit,
the most recent entry at the cursor.  Pushing moves the cursor down by one
cell and popping moves it up; no write outside these cells changes the list.
-/

namespace BoundedStack

variable {α : Type*} {memory : List α} {cursor limit : Nat}
  {contents : List α} {value : α}

/-- The cells from the cursor to the limit hold the list. -/
structure Represents (memory : List α) (cursor limit : Nat)
    (contents : List α) : Prop where
  cursor_eq : cursor + contents.length = limit
  cells : ∀ index, index < contents.length →
    memory[cursor + index]? = contents[index]?

namespace Represents

theorem empty : Represents memory limit limit [] :=
  ⟨rfl, fun _ small => absurd small (Nat.not_lt_zero _)⟩

theorem eq_nil_iff (represents : Represents memory cursor limit contents) :
    contents = [] ↔ limit ≤ cursor := by
  have total := represents.cursor_eq
  rw [← List.length_eq_zero_iff]
  omega

/-- The most recent entry lies at the cursor. -/
theorem top (represents : Represents memory cursor limit (value :: contents)) :
    memory[cursor]? = some value :=
  represents.cells 0 (Nat.succ_pos _)

theorem push (represents : Represents memory cursor limit contents)
    (positive : cursor ≠ 0) (inside : cursor - 1 < memory.length) :
    Represents (memory.set (cursor - 1) value) (cursor - 1) limit
      (value :: contents) := by
  have total := represents.cursor_eq
  refine ⟨by rw [List.length_cons]; omega, ?_⟩
  intro index small
  cases index with
  | zero => exact List.getElem?_set_self inside
  | succ index =>
      have above : cursor - 1 + (index + 1) = cursor + index := by omega
      have apart : cursor - 1 ≠ cursor + index := by omega
      rw [above, List.getElem?_set_ne apart, List.getElem?_cons_succ]
      exact represents.cells index (Nat.lt_of_succ_lt_succ small)

theorem pop (represents : Represents memory cursor limit (value :: contents)) :
    Represents memory (cursor + 1) limit contents := by
  have total := represents.cursor_eq
  rw [List.length_cons] at total
  refine ⟨by omega, ?_⟩
  intro index small
  have above : cursor + 1 + index = cursor + (index + 1) := by omega
  rw [above]
  exact represents.cells (index + 1) (Nat.succ_lt_succ small)

/-- A write below the cursor or from the limit on keeps the list. -/
theorem set_outside (represents : Represents memory cursor limit contents)
    {addr : Nat} (outside : addr < cursor ∨ limit ≤ addr) :
    Represents (memory.set addr value) cursor limit contents := by
  have total := represents.cursor_eq
  refine ⟨total, ?_⟩
  intro index small
  have apart : addr ≠ cursor + index := by omega
  rw [List.getElem?_set_ne apart]
  exact represents.cells index small

end Represents

end BoundedStack
