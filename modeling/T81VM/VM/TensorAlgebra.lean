import T81VM.VM.StructuredValues
import T81VM.VM.TensorMatrix

/-!
# The algebra of the tensor opcodes

`Yields` is the result of a tensor opcode, in any state that holds its
operands.  `TTranspose` is an involution, and on a host in two's complement it
exchanges the factors of `TMatMul`, whose entries are the results of `TTenDot`.
-/

namespace T81VM.VM

open Tisc Fallible RowMajor Interpreter
open scoped SignedWord.Modular

variable {host : Host} {rows inner cols : Nat}

/-! ## Results of tensor opcodes -/

/-- The tensor is the new last entry of the pool, and its handle stands in
`reg`. -/
structure TensorAdded (vm : Interpreter) (out : TensorValue) (reg : Fin 243)
    (final : Interpreter) : Prop where
  pool : final.state.tensorPool = vm.state.tensorPool ++ [out]
  tag : final.state.registerTags reg = .tensorHandle
  denotes : final.tensorPtr (final.state.registers reg) = some out

/-- Every step of the opcode that reads these operands adds `out`, as long as
the pool has room. -/
def Yields (host : Host) (opcode : Opcode)
    (reads : Interpreter → Insn → Prop) (out : TensorValue) : Prop :=
  ∀ vm insn reg, vm.Fetches insn → insn.opcode = opcode →
    reads vm insn → registerIndex insn.a = .ok reg →
    vm.state.tensorPool.length < maxPool →
      ∃ final, vm.step host = .ok (.ok (), final) ∧
        TensorAdded vm out reg final

/-- `TTranspose` of a tensor. -/
def TransposesTo (host : Host) (input out : TensorValue) : Prop :=
  Yields host .tTranspose (TensorOperand · · input) out

/-- `TMatMul` of two tensors. -/
def MultipliesTo (host : Host) (lhs rhs out : TensorValue) : Prop :=
  Yields host .tMatMul (TensorOperands · · lhs rhs) out

/-- `TTenDot` of two tensors. -/
def DotsTo (host : Host) (lhs rhs : TensorValue) (sum : Int64) : Prop :=
  Yields host .tTenDot (TensorOperands · · lhs rhs)
    { shape := [1], data := [sum] }

theorem finishTensor_adds {vm : Interpreter} {insn : Insn} {pc : Nat}
    {reg : Fin 243} {shape data : List Int64}
    (index : registerIndex insn.a = .ok reg)
    (room : vm.state.tensorPool.length < maxPool) :
    ∃ final, vm.finishTensor insn pc shape data = .ok (.ok (), final) ∧
      TensorAdded vm { shape, data } reg final := by
  let grown : Interpreter := { vm with
    state := { vm.state with
      tensorPool := vm.state.tensorPool ++ [{ shape, data }] } }
  let handle := ofSize (vm.state.tensorPool.length + 1)
  let final := (grown.wrote insn pc reg handle .tensorHandle).2
  have executed : vm.finishTensor insn pc shape data = .ok (.ok (), final) :=
    bind_eq_ok.mpr ⟨_, internTensor_eq_ok.mpr ⟨room, rfl, rfl⟩,
      finishWrite_eq_ok.mpr ⟨reg, index, rfl⟩⟩
  have cell : final.state.registers reg = handle := Function.update_self ..
  refine ⟨final, executed, rfl, Function.update_self .., ?_⟩
  rw [cell]
  exact poolEntry_last room

/-- A branch that ends in `finishTensor` yields the tensor. -/
theorem yields_of_execute {opcode : Opcode}
    {reads : Interpreter → Insn → Prop} {shape data : List Int64}
    (begins : ∀ vm insn, reads vm insn → reads vm.beginInsn insn)
    (computes : ∀ (vm : Interpreter) insn pc,
      insn.opcode = opcode → reads vm insn →
        vm.execute host insn pc = vm.finishTensor insn pc shape data) :
    Yields host opcode reads { shape, data } := by
  intro vm insn reg fetches same operands index room
  obtain ⟨final, executed, added⟩ :=
    @finishTensor_adds vm.beginInsn insn vm.state.pc reg shape data index room
  refine ⟨final, ?_, added.pool, added.tag, added.denotes⟩
  rw [step_of_fetches fetches,
    computes vm.beginInsn insn vm.state.pc same (begins vm insn operands)]
  exact executed

theorem tensorOf_eq_some_iff {vm : Interpreter} {idx : Int64}
    {tensor : TensorValue} :
    vm.tensorOf idx = some tensor ↔
      ∃ handle, vm.register idx = .ok handle ∧
        vm.tensorPtr handle = some tensor := by
  unfold tensorOf
  split
  · rename_i handle read
    simp [read]
  · rename_i failed
    simp [failed]

theorem withTensor_of_operand {vm : Interpreter} {insn : Insn} {pc : Nat}
    {input : TensorValue} (operand : TensorOperand vm insn input)
    (compute : TensorValue → Outcome) :
    vm.withTensor insn pc compute = compute input := by
  obtain ⟨handle, read, found⟩ := tensorOf_eq_some_iff.mp operand.2
  rw [withTensor, operand.1]
  simp only [bind, Except.bind, read, found]
  rfl

theorem withTensorPair_of_operands {vm : Interpreter} {insn : Insn} {pc : Nat}
    {lhs rhs : TensorValue} (operands : TensorOperands vm insn lhs rhs)
    (compute : TensorValue → TensorValue → Outcome) :
    vm.withTensorPair insn pc compute = compute lhs rhs := by
  obtain ⟨left, readLeft, foundLeft⟩ :=
    tensorOf_eq_some_iff.mp operands.2.1
  obtain ⟨right, readRight, foundRight⟩ :=
    tensorOf_eq_some_iff.mp operands.2.2
  rw [withTensorPair, operands.1]
  simp only [bind, Except.bind, readLeft, readRight, foundLeft, foundRight]
  rfl

/-- A state that fetches one instruction and holds two tensors. -/
def holding (insn : Insn) (lhs rhs : TensorValue) : Interpreter where
  program := { insns := [insn], axionPolicyText := []
               fits := Nat.le_of_ble_eq_true rfl }
  state := {
    registers := fun reg => if reg.val = 1 then 1 else 2
    registerTags := fun _ => .tensorHandle
    tensorPool := [lhs, rhs] }

/-- An opcode yields at most one tensor from operands that some state
holds. -/
theorem Yields.unique {opcode : Opcode} {reads : Interpreter → Insn → Prop}
    {lhs rhs out other : TensorValue} (yields : Yields host opcode reads out)
    (again : Yields host opcode reads other)
    (held : ∀ insn : Insn, insn.b = 1 → insn.c = 2 →
      reads (holding insn lhs rhs) insn) : out = other := by
  let insn : Insn := { opcode, a := 0, b := 1, c := 2 }
  have fetches : (holding insn lhs rhs).Fetches insn := ⟨rfl, rfl, rfl⟩
  obtain ⟨final, stepped, added⟩ := yields _ insn 0 fetches rfl
    (held insn rfl rfl) rfl (show 2 < maxPool by decide)
  obtain ⟨final', stepped', added'⟩ := again _ insn 0 fetches rfl
    (held insn rfl rfl) rfl (show 2 < maxPool by decide)
  rw [stepped] at stepped'
  cases stepped'
  have same := added.pool.symm.trans added'.pool
  simpa using same

theorem TransposesTo.unique {input out other : TensorValue}
    (yields : TransposesTo host input out)
    (again : TransposesTo host input other) : out = other := by
  refine @Yields.unique _ _ _ input input _ _ yields again ?_
  intro insn left _
  constructor
  · rw [left]
    rfl
  · rw [left]
    rfl

theorem MultipliesTo.unique {lhs rhs out other : TensorValue}
    (yields : MultipliesTo host lhs rhs out)
    (again : MultipliesTo host lhs rhs other) : out = other := by
  refine @Yields.unique _ _ _ lhs rhs _ _ yields again ?_
  intro insn left right
  refine ⟨?_, ?_, ?_⟩
  · rw [tagsAre, left, right]
    rfl
  · rw [left]
    rfl
  · rw [right]
    rfl

/-! ## Matrices as tensors -/

/-- The tensor that stores a matrix. -/
def gridTensor (grid : Grid Int64 rows cols) : TensorValue :=
  { shape := [ofSize rows, ofSize cols], data := grid.data }

theorem ofSize_toSize {value : Int64} (nonneg : 0 ≤ value) :
    ofSize (toSize value) = value := by
  apply Int64.toInt_inj.mp
  have cast := toSize_of_nonneg nonneg
  have upper := value.toInt_lt
  rw [toInt_ofSize (by omega), cast]

/-- Well-formed tensors of rank two store matrices. -/
theorem TensorValue.WellFormed.exists_grid {tensor : TensorValue}
    {rows cols : Int64} (formed : tensor.WellFormed)
    (shape : tensor.shape = [rows, cols]) :
    ∃ grid : Grid Int64 (toSize rows) (toSize cols),
      gridTensor grid = tensor := by
  refine ⟨⟨tensor.data, formed.grid shape⟩, ?_⟩
  have rowsSame := ofSize_toSize (formed.nonneg rows (by simp [shape]))
  have colsSame := ofSize_toSize (formed.nonneg cols (by simp [shape]))
  rw [gridTensor, rowsSame, colsSame, ← shape]

theorem toSize_lt {value : Int64} (nonneg : 0 ≤ value) :
    toSize value < 2 ^ 63 := by
  have cast := toSize_of_nonneg nonneg
  have upper := value.toInt_lt
  omega

theorem wellFormed_gridTensor {grid : Grid Int64 rows cols}
    (smallRows : rows < 2 ^ 63) (smallCols : cols < 2 ^ 63) :
    (gridTensor grid).WellFormed := by
  constructor
  · intro dim member
    rcases List.mem_cons.mp member with rfl | rest
    · exact ofSize_nonneg smallRows
    · cases List.mem_singleton.mp rest
      exact ofSize_nonneg smallCols
  · simp [gridTensor, toInt_ofSize smallRows, toInt_ofSize smallCols,
      grid.sized]

/-- `TTranspose` yields the transpose. -/
theorem transposesTo_transpose (input : Grid Int64 rows cols)
    (smallRows : rows < 2 ^ 63) (smallCols : cols < 2 ^ 63)
    (fits : rows * cols ≤ maxData) :
    TransposesTo host (gridTensor input) (gridTensor input.transpose) := by
  apply yields_of_execute (fun _ _ operand => operand)
  intro vm insn pc opcode operand
  have guard : ¬ (gridTensor input).data.length ≠ wrapSize (rows * cols) := by
    rw [wrapSize_of_lt (Nat.lt_of_le_of_lt fits maxData_lt)]
    exact not_not_intro input.sized
  have branch : vm.execute host insn pc = vm.executeTTranspose insn pc := by
    rw [execute, opcode]
  rw [branch, executeTTranspose, withTensor_of_operand operand]
  simp only [gridTensor, toSize_ofSize smallRows, toSize_ofSize smallCols]
    at guard ⊢
  rw [if_neg guard, transposeData_eq_ok input fits]
  rfl

/-- `TMatMul` yields the product. -/
theorem multipliesTo_multiply (wraps : host.Wraps)
    (lhs : Grid Int64 rows inner) (rhs : Grid Int64 inner cols)
    (smallRows : rows < 2 ^ 63) (smallInner : inner < 2 ^ 63)
    (smallCols : cols < 2 ^ 63) (left : rows * inner ≤ maxData)
    (right : inner * cols ≤ maxData) (fits : rows * cols ≤ maxData) :
    MultipliesTo host (gridTensor lhs) (gridTensor rhs)
      (gridTensor (lhs.multiply rhs)) := by
  apply yields_of_execute (fun _ _ operands => operands)
  intro vm insn pc opcode operands
  have leftSmall := Nat.lt_of_le_of_lt left maxData_lt
  have rightSmall := Nat.lt_of_le_of_lt right maxData_lt
  have guard : ¬ (inner ≠ inner ∨ lhs.data.length ≠ wrapSize (rows * inner) ∨
      rhs.data.length ≠ wrapSize (inner * cols)) := by
    rw [wrapSize_of_lt leftSmall, wrapSize_of_lt rightSmall, lhs.sized,
      rhs.sized]
    simp
  have branch : vm.execute host insn pc =
      vm.executeTMatMul host insn pc := by
    rw [execute, opcode]
  rw [branch, executeTMatMul, withTensorPair_of_operands operands]
  simp only [gridTensor, toSize_ofSize smallRows, toSize_ofSize smallInner,
    toSize_ofSize smallCols]
  rw [if_neg guard, matMulData_eq_ok wraps lhs rhs leftSmall rightSmall fits]
  rfl

/-- `TTenDot` yields the dot product. -/
theorem dotsTo_dotProduct (wraps : host.Wraps) {bound : Nat}
    (x y : Fin bound → Int64) {shape shape' : List Int64} :
    DotsTo host { shape, data := List.ofFn x }
      { shape := shape', data := List.ofFn y } (dotProduct x y) := by
  apply yields_of_execute (fun _ _ operands => operands)
  intro vm insn pc opcode operands
  have branch : vm.execute host insn pc =
      vm.executeTTenDot host insn pc := by
    rw [execute, opcode]
  rw [branch, executeTTenDot, withTensorPair_of_operands operands,
    if_neg (by simp), tenDotData_eq_ok wraps]
  rfl

/-! ## `TTranspose` twice -/

/-- The result has the swapped shape, and its entry `(c, r)` is the entry
`(r, c)` of the operand. -/
structure IsTranspose (rows cols : Int64) (input out : TensorValue) :
    Prop where
  shape : out.shape = [cols, rows]
  formed : out.WellFormed
  entries : ∀ r c, r < toSize rows → c < toSize cols →
    ∃ value, input.data[r * toSize cols + c]? = some value ∧
      out.data[c * toSize rows + r]? = some value

/-- The loops copy along `transposeMoves`, which end in every element of the
result once. -/
structure WritesOnce (rows cols : Int64) (input out : TensorValue) :
    Prop where
  moves : transposeData input.data (toSize rows) (toSize cols) = (do
    let start ← zeroData input.data.length
    (transposeMoves (toSize rows) (toSize cols)).foldlM
      (copyElement input.data) start)
  once : ((transposeMoves (toSize rows) (toSize cols)).map Prod.snd).Perm
    (List.range out.data.length)

theorem isTranspose_transpose {rows cols : Int64}
    (input : Grid Int64 (toSize rows) (toSize cols)) (rowsNonneg : 0 ≤ rows)
    (colsNonneg : 0 ≤ cols) :
    IsTranspose rows cols (gridTensor input) (gridTensor input.transpose) := by
  refine ⟨?_, ?_, ?_⟩
  · rw [gridTensor, ofSize_toSize rowsNonneg, ofSize_toSize colsNonneg]
  · exact wellFormed_gridTensor (toSize_lt colsNonneg) (toSize_lt rowsNonneg)
  · intro r c row col
    refine ⟨_, input.data_position ⟨r, row⟩ ⟨c, col⟩, ?_⟩
    have stored := input.transpose.data_position ⟨c, col⟩ ⟨r, row⟩
    rw [Grid.entries_transpose, Matrix.transpose_apply] at stored
    exact stored

/-- `TTranspose` transposes every tensor of rank two, writes each element of
the result once, and undoes itself. -/
theorem transpose_involutive (host : Host) {input : TensorValue}
    {rows cols : Int64} (formed : input.WellFormed)
    (shape : input.shape = [rows, cols])
    (fits : input.data.length ≤ maxData) :
    ∃ out, TransposesTo host input out ∧ IsTranspose rows cols input out ∧
      WritesOnce rows cols input out ∧ TransposesTo host out input := by
  have rowsNonneg := formed.nonneg rows (by simp [shape])
  have colsNonneg := formed.nonneg cols (by simp [shape])
  have smallRows := toSize_lt rowsNonneg
  have smallCols := toSize_lt colsNonneg
  obtain ⟨grid, rfl⟩ := formed.exists_grid shape
  have size : toSize rows * toSize cols ≤ maxData := by
    rw [← grid.sized]
    exact fits
  have swapped : toSize cols * toSize rows ≤ maxData := by
    rw [Nat.mul_comm]
    exact size
  have back : TransposesTo host (gridTensor grid.transpose)
      (gridTensor grid.transpose.transpose) :=
    transposesTo_transpose grid.transpose smallCols smallRows swapped
  rw [Grid.transpose_transpose] at back
  refine ⟨gridTensor grid.transpose,
    transposesTo_transpose grid smallRows smallCols size,
    isTranspose_transpose grid rowsNonneg colsNonneg,
    ⟨transposeData_eq_moves _ _ _, ?_⟩, back⟩
  have length : (gridTensor grid.transpose).data.length =
      toSize rows * toSize cols := by
    rw [Nat.mul_comm]
    exact grid.transpose.sized
  rw [length]
  exact transposeMoves_perm (Nat.lt_of_le_of_lt size maxData_lt)

/-- A tensor of two rows and three columns. -/
def wideTensor : TensorValue :=
  { shape := [2, 3], data := [1, 2, 3, 4, 5, 6] }

theorem wellFormed_wideTensor : wideTensor.WellFormed :=
  .of_all rfl rfl

theorem transpose_involutive_wideTensor :
    ∃ out, TransposesTo strictHost wideTensor out ∧
      IsTranspose 2 3 wideTensor out ∧ WritesOnce 2 3 wideTensor out ∧
      TransposesTo strictHost out wideTensor :=
  transpose_involutive strictHost wellFormed_wideTensor rfl (by decide)

/-! ## `TMatMul` and its factors -/

/-- Row `r` of a matrix with `cols` columns, as a vector. -/
structure IsRow (cols : Int64) (r : Nat) (tensor row : TensorValue) :
    Prop where
  shape : row.shape = [cols]
  length : row.data.length = toSize cols
  entries : ∀ c, c < toSize cols →
    row.data[c]? = tensor.data[r * toSize cols + c]?

/-- Column `c` of a matrix with `cols` columns, as a vector. -/
structure IsColumn (rows cols : Int64) (c : Nat)
    (tensor column : TensorValue) : Prop where
  shape : column.shape = [rows]
  length : column.data.length = toSize rows
  entries : ∀ r, r < toSize rows →
    column.data[r]? = tensor.data[r * toSize cols + c]?

/-- Every entry of the product is what `TTenDot` makes of a row of the left
factor and a column of the right one. -/
def EntriesAreDots (host : Host) (m k n : Int64)
    (lhs rhs product : TensorValue) : Prop :=
  ∀ i j, i < toSize m → j < toSize n → ∃ row column entry,
    IsRow k i lhs row ∧ IsColumn k n j rhs column ∧
      DotsTo host row column entry ∧
      product.data[i * toSize n + j]? = some entry

theorem entriesAreDots_multiply (wraps : host.Wraps) {m k n : Int64}
    (lhs : Grid Int64 (toSize m) (toSize k))
    (rhs : Grid Int64 (toSize k) (toSize n)) :
    EntriesAreDots host m k n (gridTensor lhs) (gridTensor rhs)
      (gridTensor (lhs.multiply rhs)) := by
  intro i j row col
  refine ⟨{ shape := [k], data := lhs.row ⟨i, row⟩ },
    { shape := [k], data := rhs.column ⟨j, col⟩ },
    (lhs.multiply rhs).entries ⟨i, row⟩ ⟨j, col⟩, ?_, ?_, ?_,
    Grid.data_position _ ⟨i, row⟩ ⟨j, col⟩⟩
  · refine ⟨rfl, List.length_ofFn, fun c inside => ?_⟩
    rw [lhs.getElem?_row ⟨i, row⟩ ⟨c, inside⟩]
    exact (lhs.data_position ⟨i, row⟩ ⟨c, inside⟩).symm
  · refine ⟨rfl, List.length_ofFn, fun r inside => ?_⟩
    rw [rhs.getElem?_column ⟨r, inside⟩ ⟨j, col⟩]
    exact (rhs.data_position ⟨r, inside⟩ ⟨j, col⟩).symm
  · rw [Grid.entries_multiply]
    exact dotsTo_dotProduct wraps _ _

/-- `TTranspose` of a product is the product of the transposes in the other
order, and the entries of the product are dot products. -/
theorem transpose_product (wraps : host.Wraps) {lhs rhs : TensorValue}
    {m k n : Int64} (left : lhs.WellFormed) (right : rhs.WellFormed)
    (leftShape : lhs.shape = [m, k]) (rightShape : rhs.shape = [k, n])
    (leftFits : toSize m * toSize k ≤ maxData)
    (rightFits : toSize k * toSize n ≤ maxData)
    (fits : toSize m * toSize n ≤ maxData) :
    ∃ product result leftTransposed rightTransposed,
      MultipliesTo host lhs rhs product ∧
        TransposesTo host product result ∧
        TransposesTo host lhs leftTransposed ∧
        TransposesTo host rhs rightTransposed ∧
        MultipliesTo host rightTransposed leftTransposed result ∧
        EntriesAreDots host m k n lhs rhs product := by
  have smallM := toSize_lt (left.nonneg m (by simp [leftShape]))
  have smallK := toSize_lt (left.nonneg k (by simp [leftShape]))
  have smallN := toSize_lt (right.nonneg n (by simp [rightShape]))
  obtain ⟨a, rfl⟩ := left.exists_grid leftShape
  obtain ⟨b, rfl⟩ := right.exists_grid rightShape
  have other : MultipliesTo host (gridTensor b.transpose)
      (gridTensor a.transpose) (gridTensor (a.multiply b).transpose) := by
    rw [Grid.transpose_multiply]
    exact multipliesTo_multiply wraps b.transpose a.transpose smallN smallK
      smallM (by rw [Nat.mul_comm]; exact rightFits)
      (by rw [Nat.mul_comm]; exact leftFits)
      (by rw [Nat.mul_comm]; exact fits)
  exact ⟨gridTensor (a.multiply b), gridTensor (a.multiply b).transpose,
    gridTensor a.transpose, gridTensor b.transpose,
    multipliesTo_multiply wraps a b smallM smallK smallN leftFits rightFits
      fits,
    transposesTo_transpose _ smallM smallN fits,
    transposesTo_transpose a smallM smallK leftFits,
    transposesTo_transpose b smallK smallN rightFits, other,
    entriesAreDots_multiply wraps a b⟩

/-- A tensor of three rows and one column. -/
def tallTensor : TensorValue :=
  { shape := [3, 1], data := [7, 8, 9] }

theorem transpose_product_wideTensor :
    ∃ product result leftTransposed rightTransposed,
      MultipliesTo wrappingHost wideTensor tallTensor product ∧
        TransposesTo wrappingHost product result ∧
        TransposesTo wrappingHost wideTensor leftTransposed ∧
        TransposesTo wrappingHost tallTensor rightTransposed ∧
        MultipliesTo wrappingHost rightTransposed leftTransposed result ∧
        EntriesAreDots wrappingHost 2 3 1 wideTensor tallTensor product :=
  transpose_product wrappingHost_wraps wellFormed_wideTensor
    (.of_all rfl rfl) rfl rfl (by decide) (by decide) (by decide)

end T81VM.VM
