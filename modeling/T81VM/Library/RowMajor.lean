import Mathlib.Data.List.FinRange
import Mathlib.Data.List.ProdSigma
import Mathlib.Data.Matrix.Basic
import Mathlib.Logic.Equiv.Fin.Basic

/-!
# Row-major storage

The entries of a matrix stand row by row in one list.  `cells` are the cells of
a matrix in the order of two nested counting loops, and `Grid` is a list of the
right length; its entries form a matrix, and every matrix is stored in one way.
-/

namespace RowMajor

variable {α β : Type} {rows cols : Nat}

/-- Where the entry in row `r` and column `c` is stored. -/
def position (cols r c : Nat) : Nat :=
  r * cols + c

theorem position_lt {r c : Nat} (row : r < rows) (col : c < cols) :
    position cols r c < rows * cols := by
  have next : (r + 1) * cols ≤ rows * cols :=
    Nat.mul_le_mul_right cols row
  rw [Nat.succ_mul] at next
  rw [position]
  omega

/-- The cells in the order of a loop over the columns inside a loop over the
rows. -/
def cells (rows cols : Nat) : List (Fin rows × Fin cols) :=
  (List.finRange rows).product (List.finRange cols)

theorem mem_cells (cell : Fin rows × Fin cols) : cell ∈ cells rows cols :=
  List.mem_product.mpr ⟨List.mem_finRange _, List.mem_finRange _⟩

/-- Nested counting loops visit the cells. -/
theorem foldlM_cells {m : Type → Type} [Monad m] [LawfulMonad m]
    (body : β → Nat → Nat → m β) (start : β) :
    (List.range rows).foldlM (fun value r =>
      (List.range cols).foldlM (fun value c => body value r c) value) start =
      (cells rows cols).foldlM
        (fun value cell => body value cell.1 cell.2) start := by
  rw [cells, List.product, ← List.map_coe_finRange_eq_range,
    ← List.map_coe_finRange_eq_range, List.foldlM_map]
  simp only [List.foldlM_map]
  generalize List.finRange rows = remaining
  induction remaining generalizing start with
  | nil => rfl
  | cons r remaining induction =>
      simp only [List.foldlM_cons, List.flatMap_cons, List.foldlM_append,
        List.foldlM_map, induction]

/-- In the order of the loops the cells are stored one after the other. -/
theorem cells_positions :
    (cells rows cols).map (fun cell => position cols cell.1 cell.2) =
      List.range (rows * cols) := by
  have byRows : (cells rows cols).map
      (fun cell => position cols cell.1 cell.2) =
        (List.range rows).flatMap fun r =>
          (List.range cols).map fun c => position cols r c := by
    rw [cells, List.product, ← List.map_coe_finRange_eq_range,
      ← List.map_coe_finRange_eq_range, List.map_flatMap, List.flatMap_map]
    simp only [List.map_map, Function.comp_def]
  rw [byRows]
  clear byRows
  induction rows with
  | zero => simp
  | succ rows induction =>
      rw [List.range_succ, List.flatMap_append, induction, Nat.succ_mul,
        List.range_add]
      simp [position]

/-- Every element of the list stores a cell. -/
theorem exists_position {idx : Nat} (inside : idx < rows * cols) :
    ∃ (r : Fin rows) (c : Fin cols), position cols r c = idx := by
  have member : idx ∈ (cells rows cols).map
      (fun cell => position cols cell.1 cell.2) := by
    rw [cells_positions]
    exact List.mem_range.mpr inside
  obtain ⟨cell, _, stored⟩ := List.mem_map.mp member
  exact ⟨cell.1, cell.2, stored⟩

/-- The cell stored at an index comes behind those stored below it. -/
theorem exists_cells_split {idx : Nat} (inside : idx < rows * cols) :
    ∃ before cell after, cells rows cols = before ++ cell :: after ∧
      (∀ earlier ∈ before, position cols earlier.1 earlier.2 < idx) ∧
      position cols cell.1 cell.2 = idx := by
  obtain ⟨more, size⟩ : ∃ more, rows * cols = idx + (more + 1) :=
    ⟨rows * cols - (idx + 1), by omega⟩
  have stored := @cells_positions rows cols
  rw [size, List.range_add] at stored
  obtain ⟨before, rest, split, first, second⟩ :=
    List.map_eq_append_iff.mp stored
  rw [List.range_succ_eq_map, List.map_cons] at second
  obtain ⟨cell, after, rfl, here, _⟩ := List.map_eq_cons_iff.mp second
  refine ⟨before, cell, after, split, ?_, here⟩
  intro earlier member
  apply List.mem_range.mp
  rw [← first]
  exact List.mem_map.mpr ⟨earlier, member, rfl⟩

/-- Two cells stored in one place are the same. -/
theorem position_inj {r r' c c' : Nat} (col : c < cols) (col' : c' < cols)
    (same : position cols r c = position cols r' c') : r = r' ∧ c = c' := by
  have positive : 0 < cols := Nat.zero_lt_of_lt col
  have quotient := congrArg (· / cols) same
  have remainder := congrArg (· % cols) same
  simp only [position, Nat.mul_comm _ cols, Nat.mul_add_div positive,
    Nat.div_eq_of_lt col, Nat.div_eq_of_lt col', Nat.mul_add_mod,
    Nat.mod_eq_of_lt col, Nat.mod_eq_of_lt col', Nat.add_zero]
    at quotient remainder
  exact ⟨quotient, remainder⟩

/-- The cells of a matrix visited in the order of the loops fill the transposed
one, each element once. -/
theorem cells_transposed_perm :
    ((cells rows cols).map fun cell => position rows cell.2 cell.1).Perm
      (List.range (rows * cols)) := by
  have distinct : (cells rows cols).Nodup :=
    (List.nodup_finRange rows).product (List.nodup_finRange cols)
  apply (List.perm_ext_iff_of_nodup _ List.nodup_range).mpr
  · intro idx
    rw [List.mem_range]
    constructor
    · intro member
      obtain ⟨cell, _, rfl⟩ := List.mem_map.mp member
      rw [Nat.mul_comm]
      exact position_lt cell.2.isLt cell.1.isLt
    · intro inside
      rw [Nat.mul_comm] at inside
      obtain ⟨c, r, rfl⟩ := exists_position inside
      exact List.mem_map.mpr ⟨(r, c), mem_cells _, rfl⟩
  · refine distinct.map_on ?_
    intro first _ second _ same
    obtain ⟨sameCol, sameRow⟩ :=
      position_inj first.1.isLt second.1.isLt same
    exact Prod.ext (Fin.ext sameRow) (Fin.ext sameCol)

/-! ## Filling a list -/

/-- Write the elements in turn. -/
def writeAll (out : List α) (writes : List (Nat × α)) : List α :=
  writes.foldl (fun out write => out.set write.1 write.2) out

theorem length_writeAll (out : List α) (writes : List (Nat × α)) :
    (writeAll out writes).length = out.length := by
  induction writes generalizing out with
  | nil => rfl
  | cons write writes induction =>
      exact (induction _).trans List.length_set

/-- Writes taken from one list leave a mixture of it and what was there. -/
theorem getElem?_writeAll {target out : List α} {writes : List (Nat × α)}
    (length : out.length = target.length)
    (agree : ∀ write ∈ writes, target[write.1]? = some write.2) (idx : Nat) :
    (writeAll out writes)[idx]? =
      if idx ∈ writes.map Prod.fst then target[idx]? else out[idx]? := by
  induction writes generalizing out with
  | nil => simp [writeAll]
  | cons write writes induction =>
      have first := agree write List.mem_cons_self
      have inside : write.1 < out.length := by
        rw [length]
        exact (List.getElem?_eq_some_iff.mp first).1
      have later := @induction (out.set write.1 write.2)
        (by rw [List.length_set, length])
        (fun other member => agree other (List.mem_cons_of_mem _ member))
      rw [writeAll, List.foldl_cons]
      refine later.trans ?_
      simp only [List.map_cons, List.mem_cons]
      by_cases again : idx ∈ writes.map Prod.fst
      · rw [if_pos again, if_pos (.inr again)]
      · rw [if_neg again]
        by_cases here : idx = write.1
        · rw [if_pos (.inl here), here, List.getElem?_set_self inside, first]
        · rw [List.getElem?_set_ne (Ne.symm here),
            if_neg (not_or.mpr ⟨here, again⟩)]

/-- Writes that take every element from one list copy it. -/
theorem writeAll_eq {target out : List α} {writes : List (Nat × α)}
    (length : out.length = target.length)
    (agree : ∀ write ∈ writes, target[write.1]? = some write.2)
    (covered : ∀ idx, idx < target.length → idx ∈ writes.map Prod.fst) :
    writeAll out writes = target := by
  apply List.ext_getElem?
  intro idx
  rw [getElem?_writeAll length agree]
  split
  · rfl
  · rename_i missed
    have outside : target.length ≤ idx :=
      Nat.le_of_not_gt fun inside => missed (covered idx inside)
    rw [List.getElem?_eq_none outside, List.getElem?_eq_none (by omega)]

/-! ## Grids -/

/-- A list that stores a matrix. -/
structure Grid (α : Type) (rows cols : Nat) where
  data : List α
  sized : data.length = rows * cols

namespace Grid

/-- The stored matrix. -/
def entries (grid : Grid α rows cols) : Matrix (Fin rows) (Fin cols) α :=
  fun r c => grid.data.get ⟨position cols r c, by
    rw [grid.sized]
    exact position_lt r.isLt c.isLt⟩

theorem data_position (grid : Grid α rows cols) (r : Fin rows)
    (c : Fin cols) :
    grid.data[position cols r c]? = some (grid.entries r c) :=
  List.getElem?_eq_getElem _

/-- A matrix is stored in one way. -/
theorem eq_of_entries {first second : Grid α rows cols}
    (same : first.entries = second.entries) : first = second := by
  obtain ⟨data, sized⟩ := first
  obtain ⟨other, otherSized⟩ := second
  have sameData : data = other := by
    apply List.ext_getElem?
    intro idx
    by_cases inside : idx < rows * cols
    · obtain ⟨r, c, rfl⟩ := exists_position inside
      refine (data_position ⟨data, sized⟩ r c).trans ?_
      rw [same]
      exact (data_position ⟨other, otherSized⟩ r c).symm
    · rw [List.getElem?_eq_none (by omega), List.getElem?_eq_none (by omega)]
  subst sameData
  rfl

/-- Store a matrix. -/
def ofMatrix (matrix : Matrix (Fin rows) (Fin cols) α) : Grid α rows cols where
  data := List.ofFn fun idx : Fin (rows * cols) =>
    matrix (finProdFinEquiv.symm idx).1 (finProdFinEquiv.symm idx).2
  sized := List.length_ofFn

theorem entries_ofMatrix (matrix : Matrix (Fin rows) (Fin cols) α) :
    (ofMatrix matrix).entries = matrix := by
  funext r c
  have index : (⟨position cols r c, position_lt r.isLt c.isLt⟩ :
      Fin (rows * cols)) = finProdFinEquiv (r, c) := by
    apply Fin.ext
    show r.val * cols + c.val = c.val + cols * r.val
    rw [Nat.mul_comm, Nat.add_comm]
  have read := data_position (ofMatrix matrix) r c
  simp only [ofMatrix, List.getElem?_ofFn, position_lt r.isLt c.isLt,
    dite_true, index, Equiv.symm_apply_apply] at read
  exact (Option.some.inj read).symm

/-- The rows and columns exchanged. -/
def transpose (grid : Grid α rows cols) : Grid α cols rows :=
  ofMatrix grid.entries.transpose

theorem entries_transpose (grid : Grid α rows cols) :
    grid.transpose.entries = grid.entries.transpose :=
  entries_ofMatrix _

theorem transpose_transpose (grid : Grid α rows cols) :
    grid.transpose.transpose = grid :=
  eq_of_entries (by rw [entries_transpose, entries_transpose,
    Matrix.transpose_transpose])

/-- The matrix product. -/
def multiply {inner : Nat} [Mul α] [AddCommMonoid α]
    (lhs : Grid α rows inner) (rhs : Grid α inner cols) : Grid α rows cols :=
  ofMatrix (lhs.entries * rhs.entries)

theorem entries_multiply {inner : Nat} [Mul α] [AddCommMonoid α]
    (lhs : Grid α rows inner) (rhs : Grid α inner cols) :
    (lhs.multiply rhs).entries = lhs.entries * rhs.entries :=
  entries_ofMatrix _

theorem transpose_multiply {inner : Nat} [AddCommMonoid α] [CommMagma α]
    (lhs : Grid α rows inner) (rhs : Grid α inner cols) :
    (lhs.multiply rhs).transpose = rhs.transpose.multiply lhs.transpose := by
  apply eq_of_entries
  rw [entries_transpose, entries_multiply, entries_multiply,
    entries_transpose, entries_transpose, Matrix.transpose_mul]

/-- A row, stored as a list of its own. -/
def row (grid : Grid α rows cols) (r : Fin rows) : List α :=
  List.ofFn (grid.entries r)

/-- A column, stored as a list of its own. -/
def column (grid : Grid α rows cols) (c : Fin cols) : List α :=
  List.ofFn fun r => grid.entries r c

theorem getElem?_row (grid : Grid α rows cols) (r : Fin rows)
    (c : Fin cols) : (grid.row r)[c.val]? = some (grid.entries r c) := by
  simp [row]

theorem getElem?_column (grid : Grid α rows cols) (r : Fin rows)
    (c : Fin cols) : (grid.column c)[r.val]? = some (grid.entries r c) := by
  simp [column]

end Grid

end RowMajor
