import T81VM.VM.TensorAlgebra

/-!
# Tensor opcodes and the bounds of their vectors

On well-formed tensors every index of the tensor opcodes is in range and the
new tensor is well-formed, except that `TMatMul` sizes its result modulo
`2 ^ 64`: a product with more entries gets a vector that is too short.
-/

namespace T81VM.VM

open Tisc Fallible RowMajor Interpreter
open scoped SignedWord.Modular

/-- The opcodes that compute a tensor from tensors. -/
def computesTensor : Opcode → Bool
  | .tVecAdd | .tVecMul | .tMatMul | .tTenDot | .tTranspose
  | .tExp | .tSqrt | .tSiLU | .tSoftmax | .tRMSNorm | .tRoPE => true
  | _ => false

/-- A step stays inside the vectors of its tensors, and unless it traps it
adds a well-formed one. -/
structure TensorSafe (host : Host) (vm : Interpreter) : Prop where
  inRange : ∀ idx, vm.step host ≠ .error (.tensorIndex idx)
  formed : ∀ final, vm.step host = .ok (.ok (), final) →
    ∃ out : TensorValue, out.WellFormed ∧
      final.state.tensorPool = vm.state.tensorPool ++ [out]

/-- The operands pass the guards of `TMatMul`. -/
structure Multipliable (lhs rhs : TensorValue) (rows inner cols : Int64) :
    Prop where
  left : lhs.shape = [rows, inner]
  right : rhs.shape = [inner, cols]
  leftSize : lhs.data.length = wrapSize (toSize rows * toSize inner)
  rightSize : rhs.data.length = wrapSize (toSize inner * toSize cols)

/-- A product of more than `2 ^ 64` entries whose number modulo `2 ^ 64` a
vector can hold. -/
def ProductOverruns (vm : Interpreter) (insn : Insn) : Prop :=
  insn.opcode = .tMatMul ∧ ∃ lhs rhs rows inner cols,
    TensorOperands vm insn lhs rhs ∧ Multipliable lhs rhs rows inner cols ∧
      2 ^ 64 ≤ toSize rows * toSize cols ∧
      wrapSize (toSize rows * toSize cols) ≤ maxData

/-- Any failure but an index outside a data vector. -/
def InRange (stuck : Stuck) : Prop :=
  ∀ idx, stuck ≠ .tensorIndex idx

section Loops

variable {host : Host}

theorem inRange_lengthError : InRange (.exception .lengthError) :=
  fun _ impossible => Stuck.noConfusion impossible

theorem signed_inRange {op : SignedOp} : FailsOnly InRange (host.signed op) :=
  failsOnly_of_error fun stuck failed idx same => by
    rw [(Host.signed_error failed).1] at same
    exact Stuck.noConfusion same

theorem dataAt_inRange {data : List Int64} {idx : Nat}
    (inside : idx < data.length) : FailsOnly InRange (dataAt data idx) := by
  rw [dataAt_eq_ok (List.getElem?_eq_getElem inside)]
  trivial

theorem storeAt_inRange {data : List Int64} {idx : Nat} {value : Int64}
    (inside : idx < data.length) :
    Meets InRange (fun out => out.length = data.length)
      (storeAt data idx value) := by
  rw [storeAt_eq_ok inside]
  exact List.length_set

theorem zeroData_inRange {size : Nat} :
    Meets InRange (fun out => size ≤ maxData ∧ out.length = size)
      (zeroData size) := by
  unfold zeroData
  split
  · rename_i fits
    exact ⟨fits, List.length_replicate⟩
  · exact inRange_lengthError

theorem vectorCombine_inRange {op : Int64 → Int64 → SignedOp}
    {lhs rhs : List Int64} (same : lhs.length = rhs.length) :
    Meets InRange (fun out => out.length = lhs.length)
      (vectorCombine host op lhs rhs) := by
  refine zeroData_inRange.bind fun out zeros => ?_
  refine meets_foldlM_range
    (fun _ (out : List Int64) => out.length = lhs.length) _ zeros.2 ?_
  intro i later small kept
  rw [zeros.2] at small
  refine (dataAt_inRange small).bind fun x _ => ?_
  refine (dataAt_inRange (same ▸ small)).bind fun y _ => ?_
  refine signed_inRange.bind fun value _ => ?_
  refine (storeAt_inRange (kept ▸ small)).mono ?_
  intro stored _ length
  exact length.trans kept

theorem multiplyAdd_inRange {lhs rhs : List Int64} {sum : Int64} {i j : Nat}
    (left : i < lhs.length) (right : j < rhs.length) :
    FailsOnly InRange (multiplyAdd host lhs rhs sum i j) :=
  (dataAt_inRange left).bind fun _ _ =>
    (dataAt_inRange right).bind fun _ _ =>
      signed_inRange.bind fun _ _ => signed_inRange

theorem tenDotData_inRange {lhs rhs : List Int64}
    (same : lhs.length = rhs.length) :
    FailsOnly InRange (tenDotData host lhs rhs) := by
  refine meets_foldlM_range (fun _ _ => True) _ trivial ?_
  intro i sum small _
  exact multiplyAdd_inRange small (same ▸ small)

variable {rows inner cols : Nat}

theorem matMulEntry_inRange (lhs : Grid Int64 rows inner)
    (rhs : Grid Int64 inner cols) (left : rows * inner < 2 ^ 64)
    (right : inner * cols < 2 ^ 64) {r c : Nat} (row : r < rows)
    (col : c < cols) :
    FailsOnly InRange (matMulEntry host lhs.data rhs.data inner cols r c) := by
  refine meets_foldlM_range (fun _ _ => True) _ trivial ?_
  intro k sum small _
  apply multiplyAdd_inRange
  · rw [wrapSize_position row small left, lhs.sized]
    exact position_lt row small
  · rw [wrapSize_position small col right, rhs.sized]
    exact position_lt small col

/-- The loops of `TMatMul` stay in range when the number of entries does not
wrap around. -/
theorem matMulData_inRange (lhs : Grid Int64 rows inner)
    (rhs : Grid Int64 inner cols) (left : rows * inner < 2 ^ 64)
    (right : inner * cols < 2 ^ 64)
    (bounded : wrapSize (rows * cols) ≤ maxData → rows * cols < 2 ^ 64) :
    Meets InRange (fun out => out.length = rows * cols)
      (matMulData host lhs.data rhs.data rows inner cols) := by
  refine zeroData_inRange.bind fun out zeros => ?_
  have small := bounded zeros.1
  have start := zeros.2
  rw [wrapSize_of_lt small] at start
  refine meets_foldlM_range
    (fun _ (out : List Int64) => out.length = rows * cols) _ start ?_
  intro r outer row outerKept
  refine meets_foldlM_range
    (fun _ (out : List Int64) => out.length = rows * cols) _ outerKept ?_
  intro c later col kept
  refine (matMulEntry_inRange lhs rhs left right row col).bind fun sum _ => ?_
  rw [wrapSize_position row col small]
  refine (storeAt_inRange ?_).mono fun stored _ length => length.trans kept
  rw [kept]
  exact position_lt row col

theorem transposeData_inRange (input : Grid Int64 rows cols) :
    Meets InRange (fun out => out.length = cols * rows)
      (transposeData input.data rows cols) := by
  by_cases fits : rows * cols ≤ maxData
  · rw [transposeData_eq_ok input fits]
    exact input.transpose.sized
  · have tooLong : zeroData input.data.length =
        .error (.exception .lengthError) := by
      rw [zeroData, input.sized, if_neg fits]
    rw [transposeData, tooLong]
    exact inRange_lengthError

theorem rotatePairs_inRange {data : List Int64} :
    Meets InRange (fun out => out.length = data.length)
      (rotatePairs host data) := by
  induction data using rotatePairs.induct with
  | case1 x y rest induction =>
      rw [rotatePairs]
      refine signed_inRange.bind fun turned _ => ?_
      refine induction.bind fun later length => ?_
      exact congrArg (· + 2) length
  | case2 rest short =>
      rw [rotatePairs]
      · exact rfl
      · exact short

theorem activationData_inRange {opcode : Opcode} {data : List Int64} :
    Meets InRange (fun out => ∀ values, out = some values →
      values.length = data.length) (activationData host opcode data) := by
  have mapped : ∀ f : Int64 → Int64, ∀ values,
      some (data.map f) = some values → values.length = data.length := by
    intro f values same
    cases same
    exact List.length_map _
  have nothing : ∀ values : List Int64,
      none = some values → values.length = data.length := by
    intro values impossible
    cases impossible
  unfold activationData
  split
  · exact mapped _
  · exact mapped _
  · exact mapped _
  · split
    · exact nothing
    · split
      · exact nothing
      · intro values same
        cases same
        exact List.length_mapIdx
  · split
    · exact nothing
    · split
      · exact mapped _
      · exact mapped _
  · split
    · exact nothing
    · refine rotatePairs_inRange.bind fun turned length => ?_
      intro values same
      cases same
      exact length
  · intro values same
    cases same
    rfl

/-- A product whose number of entries wraps around is written past the end of
its vector. -/
theorem matMulData_overruns (wraps : host.Wraps) (lhs : Grid Int64 rows inner)
    (rhs : Grid Int64 inner cols) (left : rows * inner < 2 ^ 64)
    (right : inner * cols < 2 ^ 64) (wrapped : 2 ^ 64 ≤ rows * cols)
    (fits : wrapSize (rows * cols) ≤ maxData) :
    matMulData host lhs.data rhs.data rows inner cols =
      .error (.tensorIndex (wrapSize (rows * cols))) := by
  have small := Nat.lt_of_le_of_lt fits maxData_lt
  unfold matMulData forBelow
  rw [zeroData_eq_ok fits]
  generalize wrapSize (rows * cols) = size at small
  obtain ⟨before, cell, after, split, below, here⟩ :=
    @exists_cells_split rows cols size (by omega)
  refine bind_eq_error.mpr (.inr ⟨_, rfl, ?_⟩)
  refine (foldlM_cells (fun out r c => do
    let sum ← matMulEntry host lhs.data rhs.data inner cols r c
    storeAt out (wrapSize (r * cols + c)) sum) _).trans ?_
  rw [split, List.foldlM_append]
  -- The cells stored below the size fill the vector.
  rw [storeLoop_eq_writeAll
    (fun item : Fin rows × Fin cols => position cols item.1 item.2)
    (fun item => (lhs.multiply rhs).entries item.1 item.2)
    (by rw [List.length_replicate]; exact below)
    fun out item member => matMulRound_eq_storeAt wraps lhs rhs left right
      item.1 item.2 ((below item member).trans small) out]
  -- The next one is stored behind its end.
  refine bind_eq_error.mpr (.inr ⟨_, rfl, ?_⟩)
  rw [List.foldlM_cons, matMulRound_eq_storeAt wraps lhs rhs left right
    cell.1 cell.2 (by rw [here]; exact small), here]
  apply bind_eq_error.mpr
  apply Or.inl
  rw [storeAt, length_writeAll, List.length_replicate,
    if_neg (Nat.lt_irrefl size)]

end Loops

/-! ## One step -/

theorem TensorValue.WellFormed.replaceData {tensor : TensorValue}
    {data : List Int64} (formed : tensor.WellFormed)
    (length : data.length = tensor.data.length) :
    ({ shape := tensor.shape, data } : TensorValue).WellFormed :=
  ⟨formed.nonneg, formed.size.trans (congrArg Nat.cast length.symm)⟩

namespace Interpreter

variable {host : Host} {vm : Interpreter} {insn : Insn} {pc : Nat}

/-- An answer other than a trap added a well-formed tensor. -/
def AddsFormed (vm : Interpreter) (answer : Expected × Interpreter) : Prop :=
  answer.1 = .ok () → ∃ out : TensorValue, out.WellFormed ∧
    answer.2.state.tensorPool = vm.state.tensorPool ++ [out]

/-- Every tensor of the pool is well-formed. -/
def PoolFormed (vm : Interpreter) : Prop :=
  ∀ tensor ∈ vm.state.tensorPool, tensor.WellFormed

theorem trap_addsFormed (code : Trap) :
    AddsFormed vm (vm.trap code insn.opcode pc) := by
  intro impossible
  cases impossible

theorem registerIndex_inRange {idx : Int64} :
    FailsOnly InRange (registerIndex idx) := by
  unfold registerIndex
  split
  · trivial
  · intro other impossible
    cases impossible

theorem finishTensor_inRange {shape data : List Int64} :
    FailsOnly InRange (vm.finishTensor insn pc shape data) := by
  have interned : FailsOnly InRange (vm.internTensor shape data) := by
    refine FailsOnly.bind ?_ fun _ _ => trivial
    unfold appendPool
    split
    · trivial
    · exact inRange_lengthError
  refine interned.bind fun grown _ => ?_
  refine FailsOnly.bind (registerIndex_inRange.bind fun _ _ => trivial)
    fun middle _ => ?_
  exact FailsOnly.bind (registerIndex_inRange.bind fun _ _ => trivial)
    fun _ _ => trivial

theorem finishTensor_addsFormed {shape data : List Int64}
    (formed : ({ shape, data } : TensorValue).WellFormed) :
    Meets InRange (AddsFormed vm) (vm.finishTensor insn pc shape data) := by
  refine finishTensor_inRange.mono fun answer executed _ _ => ?_
  obtain ⟨⟨handle, grown⟩, interned, rest⟩ := bind_eq_ok.mp executed
  obtain ⟨_, _, rfl⟩ := internTensor_eq_ok.mp interned
  obtain ⟨reg, _, same⟩ := finishWrite_eq_ok.mp rest
  cases same
  exact ⟨_, formed, rfl⟩

theorem PoolFormed.tensorOf (seeded : PoolFormed vm) {idx : Int64}
    {tensor : TensorValue} (found : vm.tensorOf idx = some tensor) :
    tensor.WellFormed := by
  obtain ⟨handle, _, entry⟩ := tensorOf_eq_some_iff.mp found
  exact seeded tensor (poolEntry_mem entry)

theorem withTensorPair_safe (seeded : PoolFormed vm)
    {compute : TensorValue → TensorValue → Outcome}
    (computes : ∀ lhs rhs, TensorOperands vm insn lhs rhs →
      lhs.WellFormed → rhs.WellFormed →
        Meets InRange (AddsFormed vm) (compute lhs rhs)) :
    Meets InRange (AddsFormed vm) (vm.withTensorPair insn pc compute) :=
  withTensorPair_rule registerIndex_inRange registerIndex_inRange
    trap_addsFormed fun lhs rhs operands => computes lhs rhs operands
      (seeded.tensorOf operands.2.1) (seeded.tensorOf operands.2.2)

theorem withTensor_safe (seeded : PoolFormed vm)
    {compute : TensorValue → Outcome}
    (computes : ∀ input, input.WellFormed →
      Meets InRange (AddsFormed vm) (compute input)) :
    Meets InRange (AddsFormed vm) (vm.withTensor insn pc compute) :=
  withTensor_rule registerIndex_inRange trap_addsFormed
    fun input operand => computes input (seeded.tensorOf operand.2)

theorem executeVector_safe (seeded : PoolFormed vm) :
    Meets InRange (AddsFormed vm) (vm.executeVector host insn pc) := by
  refine withTensorPair_safe seeded fun lhs rhs _ left _ => ?_
  split
  · exact trap_addsFormed .shapeFault
  · rename_i guard
    simp only [not_or, not_not] at guard
    refine (vectorCombine_inRange guard.2.2.2).bind fun out length => ?_
    exact finishTensor_addsFormed (left.replaceData length)

/-- The operands that pass the guards of `TMatMul`, as matrices. -/
theorem Multipliable.of_guard {lhs rhs : TensorValue}
    {rows inner rhsInner cols : Int64} (left : lhs.WellFormed)
    (right : rhs.WellFormed) (leftShape : lhs.shape = [rows, inner])
    (rightShape : rhs.shape = [rhsInner, cols])
    (same : toSize inner = toSize rhsInner)
    (leftSize : lhs.data.length = wrapSize (toSize rows * toSize inner))
    (rightSize : rhs.data.length = wrapSize (toSize rhsInner * toSize cols)) :
    Multipliable lhs rhs rows inner cols := by
  have innerSame : inner = rhsInner := by
    rw [← ofSize_toSize (left.nonneg inner (by simp [leftShape])), same,
      ofSize_toSize (right.nonneg rhsInner (by simp [rightShape]))]
  subst innerSame
  exact ⟨leftShape, rightShape, leftSize, rightSize⟩

theorem executeTMatMul_safe (seeded : PoolFormed vm)
    (opcode : insn.opcode = .tMatMul) (fits : ¬ ProductOverruns vm insn) :
    Meets InRange (AddsFormed vm) (vm.executeTMatMul host insn pc) := by
  refine withTensorPair_safe seeded fun lhs rhs operands left right => ?_
  split
  · rename_i rows inner rhsInner cols leftShape rightShape
    simp only
    split
    · exact trap_addsFormed .shapeFault
    · rename_i guard
      simp only [not_or, not_not] at guard
      obtain ⟨same, leftSize, rightSize⟩ := guard
      have guarded := Multipliable.of_guard left right leftShape rightShape
        same leftSize rightSize
      have bounded : wrapSize (toSize rows * toSize cols) ≤ maxData →
          toSize rows * toSize cols < 2 ^ 64 := by
        intro allocated
        apply Nat.lt_of_not_ge
        intro wrapped
        exact fits ⟨opcode, lhs, rhs, rows, inner, cols, operands, guarded,
          wrapped, allocated⟩
      have leftExact := left.grid leftShape
      have rightExact := right.grid guarded.right
      have loops : Meets InRange
          (fun out => out.length = toSize rows * toSize cols)
          (matMulData host lhs.data rhs.data (toSize rows) (toSize inner)
            (toSize cols)) :=
        matMulData_inRange ⟨lhs.data, leftExact⟩ ⟨rhs.data, rightExact⟩
          (by rw [← leftExact, guarded.leftSize]; exact wrapSize_lt _)
          (by rw [← rightExact, guarded.rightSize]; exact wrapSize_lt _)
          bounded
      refine loops.bind fun out length => ?_
      apply finishTensor_addsFormed
      exact @wellFormed_gridTensor _ _ ⟨out, length⟩
        (toSize_lt (left.nonneg rows (by simp [leftShape])))
        (toSize_lt (right.nonneg cols (by simp [rightShape])))
  · exact trap_addsFormed .shapeFault

theorem executeTTenDot_safe (seeded : PoolFormed vm) :
    Meets InRange (AddsFormed vm) (vm.executeTTenDot host insn pc) := by
  refine withTensorPair_safe seeded fun lhs rhs _ _ _ => ?_
  split
  · exact trap_addsFormed .shapeFault
  · rename_i guard
    refine (tenDotData_inRange (not_not.mp guard)).bind fun sum _ => ?_
    apply finishTensor_addsFormed
    exact ⟨by simp, rfl⟩

theorem executeTTranspose_safe (seeded : PoolFormed vm) :
    Meets InRange (AddsFormed vm) (vm.executeTTranspose insn pc) := by
  refine withTensor_safe seeded fun input formed => ?_
  split
  · rename_i rows cols shape
    simp only
    split
    · exact trap_addsFormed .shapeFault
    · have loops : Meets InRange
          (fun out => out.length = toSize cols * toSize rows)
          (transposeData input.data (toSize rows) (toSize cols)) :=
        transposeData_inRange ⟨input.data, formed.grid shape⟩
      refine loops.bind fun out length => ?_
      apply finishTensor_addsFormed
      exact @wellFormed_gridTensor _ _ ⟨out, length⟩
        (toSize_lt (formed.nonneg cols (by simp [shape])))
        (toSize_lt (formed.nonneg rows (by simp [shape])))
  · exact trap_addsFormed .shapeFault

theorem executeActivation_safe (seeded : PoolFormed vm) :
    Meets InRange (AddsFormed vm) (vm.executeActivation host insn pc) := by
  refine withTensor_safe seeded fun input formed => ?_
  refine activationData_inRange.bind fun out length => ?_
  cases out with
  | none => exact trap_addsFormed .shapeFault
  | some values =>
      exact finishTensor_addsFormed (formed.replaceData (length values rfl))

theorem execute_safe (seeded : PoolFormed vm)
    (computes : computesTensor insn.opcode = true)
    (fits : ¬ ProductOverruns vm insn) :
    Meets InRange (AddsFormed vm) (vm.execute host insn pc) := by
  unfold execute
  cases opcode : insn.opcode with
  | tVecAdd | tVecMul => exact executeVector_safe seeded
  | tMatMul => exact executeTMatMul_safe seeded opcode fits
  | tTenDot => exact executeTTenDot_safe seeded
  | tTranspose => exact executeTTranspose_safe seeded
  | tExp | tSqrt | tSiLU | tSoftmax | tRMSNorm | tRoPE =>
      exact executeActivation_safe seeded
  | _ =>
      rw [opcode] at computes
      cases computes

theorem tensorSafe_of_fetches (fetches : vm.Fetches insn)
    (computes : computesTensor insn.opcode = true) (seeded : PoolFormed vm)
    (fits : ¬ ProductOverruns vm insn) : TensorSafe host vm := by
  have safe : Meets InRange (AddsFormed vm.beginInsn)
      (vm.beginInsn.execute host insn vm.state.pc) :=
    execute_safe seeded computes fits
  rw [← step_of_fetches fetches] at safe
  constructor
  · intro idx failed
    exact safe.of_error failed idx rfl
  · intro final stepped
    rw [stepped] at safe
    exact safe rfl

/-- On a host in two's complement the product is written past the end of its
vector. -/
theorem step_of_productOverruns (wraps : host.Wraps)
    (fetches : vm.Fetches insn) (seeded : PoolFormed vm)
    (overruns : ProductOverruns vm insn) :
    ∃ idx, vm.step host = .error (.tensorIndex idx) := by
  obtain ⟨opcode, lhs, rhs, rows, inner, cols, operands, guarded, wrapped,
    allocated⟩ := overruns
  have held : TensorOperands vm.beginInsn insn lhs rhs := operands
  have leftExact := (seeded.tensorOf operands.2.1).grid guarded.left
  have rightExact := (seeded.tensorOf operands.2.2).grid guarded.right
  have failed := matMulData_overruns wraps ⟨lhs.data, leftExact⟩
    ⟨rhs.data, rightExact⟩
    (by rw [← leftExact, guarded.leftSize]; exact wrapSize_lt _)
    (by rw [← rightExact, guarded.rightSize]; exact wrapSize_lt _)
    wrapped allocated
  have guard : ¬ (toSize inner ≠ toSize inner ∨
      lhs.data.length ≠ wrapSize (toSize rows * toSize inner) ∨
      rhs.data.length ≠ wrapSize (toSize inner * toSize cols)) := by
    simp [← guarded.leftSize, ← guarded.rightSize]
  refine ⟨wrapSize (toSize rows * toSize cols), ?_⟩
  rw [step_of_fetches fetches, execute, opcode]
  simp only
  rw [executeTMatMul, withTensorPair_of_operands held]
  simp only [guarded.left, guarded.right]
  rw [if_neg guard]
  exact bind_eq_error.mpr (.inl failed)

/-- Exactly the products that are longer than their vectors break the bounds
of a tensor opcode. -/
theorem tensorSafe_iff (fetches : vm.Fetches insn)
    (computes : computesTensor insn.opcode = true)
    (seeded : PoolFormed vm) :
    (∀ host, TensorSafe host vm) ↔ ¬ ProductOverruns vm insn := by
  constructor
  · intro safe overruns
    obtain ⟨idx, failed⟩ :=
      step_of_productOverruns wrappingHost_wraps fetches seeded overruns
    exact (safe wrappingHost).inRange idx failed
  · intro fits host
    exact tensorSafe_of_fetches fetches computes seeded fits

/-- The product of the tensors in registers one and two. -/
def multiplyInsn : Insn :=
  { opcode := .tMatMul, a := 0, b := 1, c := 2 }

theorem holding_fetches (lhs rhs : TensorValue) :
    (holding multiplyInsn lhs rhs).Fetches multiplyInsn :=
  ⟨rfl, rfl, rfl⟩

theorem holding_poolFormed {lhs rhs : TensorValue} (left : lhs.WellFormed)
    (right : rhs.WellFormed) : PoolFormed (holding insn lhs rhs) := by
  intro tensor member
  rcases List.mem_cons.mp member with rfl | rest
  · exact left
  · cases List.mem_singleton.mp rest
    exact right

/-- Two rows and three columns, times three rows and one column. -/
theorem tensorSafe_iff_wideTensor :
    ¬ ProductOverruns (holding multiplyInsn wideTensor tallTensor)
        multiplyInsn ∧
      ∀ host, TensorSafe host
        (holding multiplyInsn wideTensor tallTensor) := by
  have fits : ¬ ProductOverruns (holding multiplyInsn wideTensor tallTensor)
      multiplyInsn := by
    intro overruns
    obtain ⟨_, lhs, rhs, rows, inner, cols, operands, guarded, wrapped, _⟩ :=
      overruns
    have left : some wideTensor = some lhs := operands.2.1
    have right : some tallTensor = some rhs := operands.2.2
    cases left
    cases right
    cases guarded.left
    cases guarded.right
    exact absurd wrapped (by decide)
  have seeded : PoolFormed (holding multiplyInsn wideTensor tallTensor) :=
    holding_poolFormed wellFormed_wideTensor (.of_all rfl rfl)
  exact ⟨fits, (tensorSafe_iff (holding_fetches _ _) rfl seeded).mpr fits⟩

/-- `2 ^ 62` empty rows. -/
def emptyRows : TensorValue :=
  { shape := [4611686018427387904, 0], data := [] }

/-- Four empty columns. -/
def emptyColumns : TensorValue :=
  { shape := [0, 4], data := [] }

/-- The product of empty matrices with `2 ^ 64` entries is stored in an empty
vector. -/
theorem not_tensorSafe_emptyRows :
    ¬ ∀ (host : Host) (vm : Interpreter) (insn : Insn), vm.Fetches insn →
      computesTensor insn.opcode = true → PoolFormed vm →
        TensorSafe host vm := by
  intro safe
  have seeded : PoolFormed (holding multiplyInsn emptyRows emptyColumns) :=
    holding_poolFormed (.of_all rfl rfl) (.of_all rfl rfl)
  have overruns : ProductOverruns
      (holding multiplyInsn emptyRows emptyColumns) multiplyInsn :=
    ⟨rfl, emptyRows, emptyColumns, 4611686018427387904, 0, 4,
      ⟨rfl, rfl, rfl⟩, ⟨rfl, rfl, by decide, by decide⟩, by decide,
      by decide⟩
  obtain ⟨idx, failed⟩ := step_of_productOverruns wrappingHost_wraps
    (holding_fetches _ _) seeded overruns
  exact (safe wrappingHost _ multiplyInsn (holding_fetches _ _) rfl
    seeded).inRange idx failed

end Interpreter

end T81VM.VM
