import T81VM.VM.Arithmetic

/-!
# Tensor loops

The loops of the tensor opcodes over the data vectors of their operands.
Indices and sizes are `std::size_t` values, computed modulo `2 ^ 64`.
-/

namespace T81VM.VM

/-- `max_size()` of a `std::vector<std::int64_t>`. -/
def maxData : Nat := ptrdiffMax / 8

def dataAt (data : List Int64) (idx : Nat) : Except Stuck Int64 :=
  match data[idx]? with
  | some value => .ok value
  | none => .error (.tensorIndex idx)

def storeAt (data : List Int64) (idx : Nat) (value : Int64) :
    Except Stuck (List Int64) :=
  if idx < data.length then .ok (data.set idx value)
  else .error (.tensorIndex idx)

/-- A data vector of zeros. -/
def zeroData (size : Nat) : Except Stuck (List Int64) :=
  if size ≤ maxData then .ok (List.replicate size 0)
  else .error (.exception .lengthError)

/-- Run the body of a counting loop for each index below the bound. -/
def forBelow {β : Type} (bound : Nat) (start : β)
    (body : β → Nat → Except Stuck β) : Except Stuck β :=
  (List.range bound).foldlM body start

variable (host : Host)

/-- `TVecAdd` and `TVecMul`, by the operation applied to two elements. -/
def vectorCombine (op : Int64 → Int64 → SignedOp) (lhs rhs : List Int64) :
    Except Stuck (List Int64) := do
  let out ← zeroData lhs.length
  forBelow out.length out fun out i => do
    let x ← dataAt lhs i
    let y ← dataAt rhs i
    let value ← host.signed (op x y)
    storeAt out i value

/-- `sum += lhs[i] * rhs[j]`. -/
def multiplyAdd (lhs rhs : List Int64) (sum : Int64) (i j : Nat) :
    Except Stuck Int64 := do
  let x ← dataAt lhs i
  let y ← dataAt rhs j
  let product ← host.signed (.mul x y)
  host.signed (.add sum product)

/-- The inner sum of `TMatMul`. -/
def matMulEntry (lhs rhs : List Int64) (inner cols r c : Nat) :
    Except Stuck Int64 :=
  forBelow inner 0 fun sum k =>
    multiplyAdd host lhs rhs sum
      (wrapSize (r * inner + k)) (wrapSize (k * cols + c))

def matMulData (lhs rhs : List Int64) (rows inner cols : Nat) :
    Except Stuck (List Int64) := do
  let out ← zeroData (wrapSize (rows * cols))
  forBelow rows out fun out r =>
    forBelow cols out fun out c => do
      let sum ← matMulEntry host lhs rhs inner cols r c
      storeAt out (wrapSize (r * cols + c)) sum

def tenDotData (lhs rhs : List Int64) : Except Stuck Int64 :=
  forBelow lhs.length 0 fun sum i => multiplyAdd host lhs rhs sum i i

def transposeData (data : List Int64) (rows cols : Nat) :
    Except Stuck (List Int64) := do
  let out ← zeroData data.length
  forBelow rows out fun out r =>
    forBelow cols out fun out c => do
      let value ← dataAt data (wrapSize (r * cols + c))
      storeAt out (wrapSize (c * rows + r)) value

/-- Rotate each pair of neighbouring elements. -/
def rotatePairs : List Int64 → Except Stuck (List Int64)
  | x :: y :: rest => do
      let turned ← host.signed (.neg x)
      let later ← rotatePairs rest
      return y :: turned :: later
  | rest => .ok rest

/-- `std::clamp<std::int64_t>(value, -20, 20)`. -/
def clampExponent (value : Int64) : Int64 :=
  if value < -20 then -20 else if 20 < value then 20 else value

end T81VM.VM
