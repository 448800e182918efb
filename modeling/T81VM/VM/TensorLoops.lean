import T81VM.Library.Fallible
import T81VM.VM.Tensor

/-!
# Failures of the tensor loops

A tensor loop fails because an index is outside a data vector, because a
vector would be too long, or because one of its signed operations fails.  The
rules below reduce the loops to their signed operations.
-/

namespace T81VM.VM

open Fallible

section Loops

variable {host : Host} {reasons : Stuck → Prop}

theorem zeroData_meets (length : reasons (.exception .lengthError))
    {size : Nat} : FailsOnly reasons (zeroData size) := by
  unfold zeroData
  split
  · trivial
  · exact length

/-- The rotation negates the elements at even positions. -/
theorem rotatePairs_meets {data : List Int64}
    (evaluates : ∀ (i : Nat) (x : Int64), i % 2 = 0 → i + 1 < data.length →
      data[i]? = some x → FailsOnly reasons (host.signed (.neg x))) :
    FailsOnly reasons (rotatePairs host data) := by
  induction data using rotatePairs.induct with
  | case1 x y rest induction =>
      rw [rotatePairs]
      refine (evaluates 0 x rfl (by simp) rfl).bind fun turned _ => ?_
      refine FailsOnly.bind (induction ?_) fun later _ => trivial
      intro i z even inside read
      exact evaluates (i + 2) z (by omega)
        (by simp only [List.length_cons]; omega) (by simpa using read)
  | case2 rest short =>
      rw [rotatePairs]
      · trivial
      · exact short

variable (index : ∀ idx, reasons (.tensorIndex idx))

include index

theorem dataAt_meets {data : List Int64} {idx : Nat} :
    Meets reasons (fun value => data[idx]? = some value) (dataAt data idx) := by
  unfold dataAt
  split
  · rename_i value read
    exact read
  · exact index idx

theorem storeAt_meets {data : List Int64} {idx : Nat} {value : Int64} :
    FailsOnly reasons (storeAt data idx value) := by
  unfold storeAt
  split
  · trivial
  · exact index idx

/-- One round of an inner product. -/
theorem multiplyAdd_meets {post : Int64 → Prop} {lhs rhs : List Int64}
    {sum : Int64} {i j : Nat}
    (evaluates : ∀ x y, lhs[i]? = some x → rhs[j]? = some y →
      Meets reasons post (do
        let product ← host.signed (.mul x y)
        host.signed (.add sum product))) :
    Meets reasons post (multiplyAdd host lhs rhs sum i j) :=
  (dataAt_meets index).bind fun x left =>
    (dataAt_meets index).bind fun y right => evaluates x y left right

/-- An inner product, by an assertion about its partial sums. -/
theorem innerProduct_meets (sums : Nat → Int64 → Prop)
    {lhs rhs : List Int64} {bound : Nat} {left right : Nat → Nat}
    (initial : sums 0 0)
    (round : ∀ k sum x y, k < bound → sums k sum →
      lhs[left k]? = some x → rhs[right k]? = some y →
      Meets reasons (sums (k + 1)) (do
        let product ← host.signed (.mul x y)
        host.signed (.add sum product))) :
    Meets reasons (sums bound) (forBelow bound 0 fun sum k =>
      multiplyAdd host lhs rhs sum (left k) (right k)) :=
  meets_foldlM_range sums bound initial fun k sum small holds =>
    multiplyAdd_meets index fun x y readLeft readRight =>
      round k sum x y small holds readLeft readRight

variable (length : reasons (.exception .lengthError))

include length

theorem vectorCombine_meets {op : Int64 → Int64 → SignedOp}
    {lhs rhs : List Int64}
    (evaluates : ∀ (i : Nat) (x y : Int64), lhs[i]? = some x →
      rhs[i]? = some y → FailsOnly reasons (host.signed (op x y))) :
    FailsOnly reasons (vectorCombine host op lhs rhs) := by
  refine (zeroData_meets length).bind fun out _ => ?_
  refine meets_foldlM_range (fun _ _ => True) _ trivial ?_
  intro i out _ _
  refine (dataAt_meets index).bind fun x left => ?_
  refine (dataAt_meets index).bind fun y right => ?_
  refine (evaluates i x y left right).bind fun value _ => ?_
  exact storeAt_meets index

theorem matMulData_meets {lhs rhs : List Int64} {rows inner cols : Nat}
    (entries : ∀ r c, r < rows → c < cols →
      FailsOnly reasons (matMulEntry host lhs rhs inner cols r c)) :
    FailsOnly reasons (matMulData host lhs rhs rows inner cols) := by
  refine (zeroData_meets length).bind fun out _ => ?_
  refine meets_foldlM_range (fun _ _ => True) _ trivial ?_
  intro r out smallRow _
  refine meets_foldlM_range (fun _ _ => True) _ trivial ?_
  intro c out smallCol _
  exact (entries r c smallRow smallCol).bind fun sum _ => storeAt_meets index

theorem transposeData_meets {data : List Int64} {rows cols : Nat} :
    FailsOnly reasons (transposeData data rows cols) := by
  refine (zeroData_meets length).bind fun out _ => ?_
  refine meets_foldlM_range (fun _ _ => True) _ trivial ?_
  intro r out _ _
  refine meets_foldlM_range (fun _ _ => True) _ trivial ?_
  intro c out _ _
  exact (dataAt_meets index).bind fun value _ => storeAt_meets index

end Loops

end T81VM.VM
