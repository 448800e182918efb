import Mathlib.Algebra.BigOperators.Fin
import T81VM.Library.RowMajor
import T81VM.VM.CompareBranch
import T81VM.VM.TensorLoops

/-!
# Tensors as matrices

The loops of the tensor opcodes, on a host in two's complement, compute the
product, the transpose and the dot product of matrices over the words modulo
`2 ^ 64`.
-/

namespace T81VM.VM

open Fallible RowMajor
open scoped SignedWord.Modular

/-- The dimensions are non-negative, and their exact product is the number of
elements. -/
structure TensorValue.WellFormed (tensor : TensorValue) : Prop where
  nonneg : ∀ dim ∈ tensor.shape, 0 ≤ dim
  size : (tensor.shape.map Int64.toInt).prod = tensor.data.length

/-- Well-formedness can be evaluated. -/
theorem TensorValue.WellFormed.of_all {tensor : TensorValue}
    (nonneg : tensor.shape.all (fun dim => decide (0 ≤ dim)) = true)
    (size : (tensor.shape.map Int64.toInt).prod = tensor.data.length) :
    tensor.WellFormed :=
  ⟨fun dim member => of_decide_eq_true (List.all_eq_true.mp nonneg dim member),
    size⟩

theorem wrapSize_of_lt {size : Nat} (small : size < 2 ^ 64) :
    wrapSize size = size :=
  Nat.mod_eq_of_lt small

theorem wrapSize_lt (size : Nat) : wrapSize size < 2 ^ 64 :=
  Nat.mod_lt size (Nat.two_pow_pos 64)

/-- The exact size of a well-formed tensor of rank two. -/
theorem TensorValue.WellFormed.grid {tensor : TensorValue} {rows cols : Int64}
    (formed : tensor.WellFormed) (shape : tensor.shape = [rows, cols]) :
    tensor.data.length = toSize rows * toSize cols := by
  have size := formed.size
  have rowsCast := toSize_of_nonneg (formed.nonneg rows (by simp [shape]))
  have colsCast := toSize_of_nonneg (formed.nonneg cols (by simp [shape]))
  simp only [shape, List.map_cons, List.map_nil, List.prod_cons,
    List.prod_nil, mul_one] at size
  rw [← rowsCast, ← colsCast] at size
  exact_mod_cast size.symm

theorem maxData_lt : maxData < 2 ^ 64 := by
  decide

section Loops

variable {host : Host} {rows inner cols : Nat}

/-- A loop that multiplies and adds computes a dot product. -/
theorem innerProduct_eq_ok (wraps : host.Wraps) {lhs rhs : List Int64}
    {left right : Nat → Nat} {bound : Nat} {x y : Fin bound → Int64}
    (readLeft : ∀ k : Fin bound, lhs[left k]? = some (x k))
    (readRight : ∀ k : Fin bound, rhs[right k]? = some (y k)) :
    (forBelow bound 0 fun sum k =>
      multiplyAdd host lhs rhs sum (left k) (right k)) =
        .ok (dotProduct x y) := by
  unfold forBelow
  induction bound with
  | zero => rfl
  | succ bound induction =>
      have earlier := induction (x := fun k => x k.castSucc)
        (y := fun k => y k.castSucc) (fun k => readLeft k.castSucc)
        (fun k => readRight k.castSucc)
      have lastLeft := readLeft (Fin.last bound)
      have lastRight := readRight (Fin.last bound)
      rw [Fin.val_last] at lastLeft lastRight
      rw [List.range_succ, List.foldlM_append, earlier]
      have round : multiplyAdd host lhs rhs
          (dotProduct (fun k : Fin bound => x k.castSucc)
            fun k => y k.castSucc)
          (left bound) (right bound) = .ok (dotProduct x y) := by
        simp only [multiplyAdd, dataAt, lastLeft, lastRight]
        refine bind_eq_ok.mpr ⟨_, rfl, bind_eq_ok.mpr ⟨_, rfl, ?_⟩⟩
        refine bind_eq_ok.mpr ⟨_, wraps.signed_eq_ok _, ?_⟩
        rw [wraps.signed_eq_ok, dotProduct, dotProduct,
          Fin.sum_univ_castSucc]
        rfl
      exact bind_eq_ok.mpr ⟨_, rfl, bind_eq_ok.mpr ⟨_, round, rfl⟩⟩

/-- Indices below the exact size of a matrix do not wrap around. -/
theorem wrapSize_position {r c : Nat} (row : r < rows) (col : c < cols)
    (small : rows * cols < 2 ^ 64) :
    wrapSize (r * cols + c) = position cols r c :=
  wrapSize_of_lt ((position_lt row col).trans small)

/-- The inner loop of `TMatMul` computes an entry of the product. -/
theorem matMulEntry_eq_ok (wraps : host.Wraps) (lhs : Grid Int64 rows inner)
    (rhs : Grid Int64 inner cols) (left : rows * inner < 2 ^ 64)
    (right : inner * cols < 2 ^ 64) (r : Fin rows) (c : Fin cols) :
    matMulEntry host lhs.data rhs.data inner cols r c =
      .ok ((lhs.multiply rhs).entries r c) := by
  rw [Grid.entries_multiply]
  apply innerProduct_eq_ok wraps
  · intro k
    rw [wrapSize_position r.isLt k.isLt left]
    exact lhs.data_position r k
  · intro k
    rw [wrapSize_position k.isLt c.isLt right]
    exact rhs.data_position k c

theorem zeroData_eq_ok {size : Nat} (fits : size ≤ maxData) :
    zeroData size = .ok (List.replicate size 0) :=
  if_pos fits

theorem storeAt_eq_ok {data : List Int64} {idx : Nat} {value : Int64}
    (inside : idx < data.length) :
    storeAt data idx value = .ok (data.set idx value) :=
  if_pos inside

theorem dataAt_eq_ok {data : List Int64} {idx : Nat} {value : Int64}
    (read : data[idx]? = some value) : dataAt data idx = .ok value := by
  rw [dataAt, read]

section StoreLoop

variable {β : Type} {items : List β} {start : List Int64}
  {body : List Int64 → β → Except Stuck (List Int64)}

/-- A loop that stores one element in every round. -/
theorem storeLoop_eq_writeAll (place : β → Nat) (value : β → Int64)
    (inside : ∀ item ∈ items, place item < start.length)
    (round : ∀ out, ∀ item ∈ items,
      body out item = storeAt out (place item) (value item)) :
    items.foldlM body start = .ok
      (writeAll start (items.map fun item => (place item, value item))) := by
  rw [writeAll, List.foldl_map]
  apply foldlM_eq_ok (fun out => out.length = start.length) rfl
  intro out item member kept
  refine ⟨?_, by rw [List.length_set, kept]⟩
  rw [round out item member]
  exact storeAt_eq_ok (by rw [kept]; exact inside item member)

/-- A loop that stores every element of a list, in any order, copies it. -/
theorem storeLoop_eq_ok {target : List Int64} (place : β → Nat)
    (value : β → Int64) (length : start.length = target.length)
    (agree : ∀ item ∈ items, target[place item]? = some (value item))
    (covered : ∀ idx, idx < target.length → idx ∈ items.map place)
    (round : ∀ out, ∀ item ∈ items,
      body out item = storeAt out (place item) (value item)) :
    items.foldlM body start = .ok target := by
  rw [storeLoop_eq_writeAll place value ?_ round]
  · apply congrArg Except.ok
    apply writeAll_eq length
    · intro write member
      obtain ⟨item, listed, rfl⟩ := List.mem_map.mp member
      exact agree item listed
    · intro idx inside
      rw [List.map_map]
      exact covered idx inside
  · intro item member
    rw [length]
    exact (List.getElem?_eq_some_iff.mp (agree item member)).1

end StoreLoop

/-- One round of the loops of `TMatMul` stores an entry of the product. -/
theorem matMulRound_eq_storeAt (wraps : host.Wraps)
    (lhs : Grid Int64 rows inner) (rhs : Grid Int64 inner cols)
    (left : rows * inner < 2 ^ 64) (right : inner * cols < 2 ^ 64)
    (r : Fin rows) (c : Fin cols) (small : position cols r c < 2 ^ 64)
    (out : List Int64) :
    (do
      let sum ← matMulEntry host lhs.data rhs.data inner cols r c
      storeAt out (wrapSize (r * cols + c)) sum) =
      storeAt out (position cols r c) ((lhs.multiply rhs).entries r c) := by
  rw [matMulEntry_eq_ok wraps lhs rhs left right,
    show wrapSize (r * cols + c) = position cols r c from wrapSize_of_lt small]
  rfl

/-- The loops of `TMatMul` compute the product. -/
theorem matMulData_eq_ok (wraps : host.Wraps) (lhs : Grid Int64 rows inner)
    (rhs : Grid Int64 inner cols) (left : rows * inner < 2 ^ 64)
    (right : inner * cols < 2 ^ 64) (fits : rows * cols ≤ maxData) :
    matMulData host lhs.data rhs.data rows inner cols =
      .ok (lhs.multiply rhs).data := by
  have small := Nat.lt_of_le_of_lt fits maxData_lt
  unfold matMulData forBelow
  rw [wrapSize_of_lt small, zeroData_eq_ok fits]
  refine bind_eq_ok.mpr ⟨_, rfl, ?_⟩
  refine (foldlM_cells (fun out r c => do
    let sum ← matMulEntry host lhs.data rhs.data inner cols r c
    storeAt out (wrapSize (r * cols + c)) sum) _).trans ?_
  apply storeLoop_eq_ok (fun cell => position cols cell.1 cell.2)
    (fun cell => (lhs.multiply rhs).entries cell.1 cell.2)
  · rw [List.length_replicate, Grid.sized]
  · intro cell _
    exact Grid.data_position _ cell.1 cell.2
  · intro idx inside
    rw [cells_positions, List.mem_range, ← Grid.sized]
    exact inside
  · intro out cell _
    exact matMulRound_eq_storeAt wraps lhs rhs left right cell.1 cell.2
      ((position_lt cell.1.isLt cell.2.isLt).trans small) out

/-- The loop of `TTenDot` computes the dot product. -/
theorem tenDotData_eq_ok (wraps : host.Wraps) {bound : Nat}
    (x y : Fin bound → Int64) :
    tenDotData host (List.ofFn x) (List.ofFn y) = .ok (dotProduct x y) := by
  unfold tenDotData
  rw [List.length_ofFn]
  apply innerProduct_eq_ok wraps
  · intro k
    simp
  · intro k
    simp

/-! ## The transpose -/

/-- The elements `TTranspose` reads and those it writes, in its order. -/
def transposeMoves (rows cols : Nat) : List (Nat × Nat) :=
  (List.range rows).flatMap fun r =>
    (List.range cols).map fun c =>
      (wrapSize (r * cols + c), wrapSize (c * rows + r))

/-- Copy one element. -/
def copyElement (data out : List Int64) (move : Nat × Nat) :
    Except Stuck (List Int64) := do
  let value ← dataAt data move.1
  storeAt out move.2 value

/-- The loops of `TTranspose` make exactly these moves. -/
theorem transposeData_eq_moves (data : List Int64) (rows cols : Nat) :
    transposeData data rows cols = (do
      let out ← zeroData data.length
      (transposeMoves rows cols).foldlM (copyElement data) out) := by
  unfold transposeData forBelow transposeMoves
  congr 1
  funext out
  generalize List.range rows = remaining
  induction remaining generalizing out with
  | nil => rfl
  | cons r remaining induction =>
      rw [List.foldlM_cons, List.flatMap_cons, List.foldlM_append,
        List.foldlM_map]
      congr 1
      funext later
      exact induction later

theorem transposeMoves_eq_map (small : rows * cols < 2 ^ 64) :
    transposeMoves rows cols = (cells rows cols).map fun cell =>
      (position cols cell.1 cell.2, position rows cell.2 cell.1) := by
  rw [transposeMoves, cells, List.product, ← List.map_coe_finRange_eq_range,
    ← List.map_coe_finRange_eq_range, List.map_flatMap, List.flatMap_map]
  congr 1
  funext r
  rw [List.map_map, List.map_map]
  congr 1
  funext c
  have swapped : cols * rows < 2 ^ 64 := by
    rw [Nat.mul_comm]
    exact small
  exact Prod.ext (wrapSize_position r.isLt c.isLt small)
    (wrapSize_position c.isLt r.isLt swapped)

/-- Every element of the result is written once. -/
theorem transposeMoves_perm (small : rows * cols < 2 ^ 64) :
    ((transposeMoves rows cols).map Prod.snd).Perm
      (List.range (rows * cols)) := by
  rw [transposeMoves_eq_map small, List.map_map]
  exact cells_transposed_perm

/-- The loops of `TTranspose` compute the transpose. -/
theorem transposeData_eq_ok (input : Grid Int64 rows cols)
    (fits : rows * cols ≤ maxData) :
    transposeData input.data rows cols = .ok input.transpose.data := by
  have small := Nat.lt_of_le_of_lt fits maxData_lt
  rw [transposeData_eq_moves, input.sized, zeroData_eq_ok fits]
  refine bind_eq_ok.mpr ⟨_, rfl, ?_⟩
  rw [transposeMoves_eq_map small, List.foldlM_map]
  apply storeLoop_eq_ok (fun cell => position rows cell.2 cell.1)
    (fun cell => input.entries cell.1 cell.2)
  · rw [List.length_replicate, Grid.sized, Nat.mul_comm]
  · intro cell _
    rw [Grid.data_position, Grid.entries_transpose, Matrix.transpose_apply]
  · intro idx inside
    rw [Grid.sized, Nat.mul_comm] at inside
    exact cells_transposed_perm.mem_iff.mpr (List.mem_range.mpr inside)
  · intro out cell _
    rw [copyElement, dataAt_eq_ok (input.data_position cell.1 cell.2)]
    rfl

end Loops

end T81VM.VM
