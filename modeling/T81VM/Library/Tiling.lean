import Mathlib.Data.List.Chain
import Mathlib.Data.Set.Lattice
import Mathlib.Order.Interval.Set.LinearOrder

/-!
# Tilings of an address range

Blocks, given by base and size, that lie above each other without gaps.  The
list of a tiling starts with the topmost block, as a stack of blocks does.
-/

namespace Tiling

/-- The addresses of a block. -/
def cells (block : Nat × Nat) : Set Nat :=
  Set.Ico block.1 (block.1 + block.2)

/-- The blocks fill the addresses from `start` up to `top`. -/
inductive Tiles (start : Nat) : Nat → List (Nat × Nat) → Prop where
  | nil : Tiles start start []
  | cons {base size : Nat} {blocks : List (Nat × Nat)}
      (below : Tiles start base blocks) (nonempty : 0 < size) :
      Tiles start (base + size) ((base, size) :: blocks)

variable {start top base size : Nat} {blocks : List (Nat × Nat)}
  {block : Nat × Nat}

theorem Tiles.start_le (tiles : Tiles start top blocks) : start ≤ top := by
  induction tiles with
  | nil => exact Nat.le_refl start
  | cons below nonempty induction => omega

/-- Removing the topmost block leaves a tiling of what is below it. -/
theorem Tiles.tail (tiles : Tiles start top (block :: blocks)) :
    Tiles start block.1 blocks ∧ 0 < block.2 ∧ top = block.1 + block.2 := by
  cases tiles with
  | cons below nonempty => exact ⟨below, nonempty, rfl⟩

theorem Tiles.nonempty (tiles : Tiles start top blocks)
    (member : block ∈ blocks) : 0 < block.2 := by
  induction tiles with
  | nil => cases member
  | cons below positive induction =>
      rcases List.mem_cons.mp member with rfl | older
      · exact positive
      · exact induction older

/-- Every block lies between the ends of the tiling. -/
theorem Tiles.cells_subset (tiles : Tiles start top blocks)
    (member : block ∈ blocks) : cells block ⊆ Set.Ico start top := by
  induction tiles with
  | nil => cases member
  | cons below nonempty induction =>
      rcases List.mem_cons.mp member with rfl | older
      · exact Set.Ico_subset_Ico_left below.start_le
      · apply (induction older).trans
        exact Set.Ico_subset_Ico_right (Nat.le_add_right _ _)

/-- A block above a tiling meets none of its blocks. -/
theorem Tiles.disjoint_above (tiles : Tiles start top blocks)
    (member : block ∈ blocks) : cells (top, size) ∩ cells block = ∅ := by
  have below := tiles.cells_subset member
  apply Set.eq_empty_of_forall_notMem
  intro addr ⟨above, inside⟩
  have under : addr < top := (Set.mem_Ico.mp (below inside)).2
  have beyond : top ≤ addr := (Set.mem_Ico.mp above).1
  exact Nat.lt_irrefl _ (Nat.lt_of_lt_of_le under beyond)

theorem Tiles.pairwise_disjoint (tiles : Tiles start top blocks) :
    blocks.Pairwise fun upper lower => cells upper ∩ cells lower = ∅ := by
  induction tiles with
  | nil => exact List.Pairwise.nil
  | cons below nonempty induction =>
      refine List.Pairwise.cons ?_ induction
      intro lower member
      exact below.disjoint_above member

/-- The blocks together are the whole range. -/
theorem Tiles.covers (tiles : Tiles start top blocks) :
    ⋃ block ∈ blocks, cells block = Set.Ico start top := by
  induction tiles with
  | nil => simp
  | @cons base size blocks below nonempty induction =>
      have split : Set.Ico start base ∪ Set.Ico base (base + size) =
          Set.Ico start (base + size) :=
        Set.Ico_union_Ico_eq_Ico below.start_le (Nat.le_add_right _ _)
      simp only [List.mem_cons, Set.iUnion_iUnion_eq_or_left]
      rw [induction, Set.union_comm]
      exact split

/-- Neighbours touch: the lower one ends where the upper one starts. -/
theorem Tiles.consecutive (tiles : Tiles start top blocks) :
    blocks.IsChain fun upper lower => lower.1 + lower.2 = upper.1 := by
  induction tiles with
  | nil => exact List.IsChain.nil
  | @cons base size blocks below nonempty induction =>
      cases below with
      | nil => exact List.IsChain.singleton _
      | cons lower positive => exact List.IsChain.cons_cons rfl induction

end Tiling
