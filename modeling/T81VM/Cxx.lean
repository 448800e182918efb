import Mathlib.Algebra.Group.Int.Defs
import Mathlib.Algebra.Group.Nat.Defs
import Mathlib.Logic.Function.Basic

/-!
# C++ values

A `std::string` is a list of bytes, an `std::int64_t` is an `Int64`, and a
`std::size_t` is a natural number; `toSize` and `ofSize` are the casts between
the last two.  A vector is a list, and its length is bounded where the code
depends on it.
-/

namespace T81VM

/-- The bytes of a `std::string`. -/
abbrev Text := List UInt8

/-- The bytes of an ASCII literal. -/
def text (literal : String) : Text :=
  literal.toList.map Char.toUInt8

/-- Bytes of a text are checked along the text, not among all bytes. -/
instance (priority := 2000) decidableForallByte (input : Text)
    (property : UInt8 → Prop) [DecidablePred property] :
    Decidable (∀ byte ∈ input, property byte) :=
  List.decidableBAll property input

/-- The exceptions of the standard library that the code can raise. -/
inductive StdException where
  | outOfRange
  | lengthError
  deriving DecidableEq, Repr

/-- `std::isspace` in the C locale. -/
def isSpace (byte : UInt8) : Bool :=
  byte == ' '.toUInt8 || (9 ≤ byte && byte ≤ 13)

@[grind =] theorem isSpace_eq (byte : UInt8) :
    isSpace byte = (byte == 32 || (9 ≤ byte && byte ≤ 13)) := rfl

/-- The pattern piece that matches one given byte. -/
def isByte (expected : Char) (byte : UInt8) : Bool :=
  byte == expected.toUInt8

/-- `static_cast<std::size_t>` of a signed word. -/
def toSize (value : Int64) : Nat :=
  value.toUInt64.toNat

/-- `static_cast<std::int64_t>` of a size. -/
def ofSize (size : Nat) : Int64 :=
  Int64.ofNat size

/-- `std::size_t` arithmetic is modulo `2 ^ 64`. -/
def wrapSize (size : Nat) : Nat :=
  size % 2 ^ 64

/-- `PTRDIFF_MAX`: no `std::vector` is longer, in bytes. -/
def ptrdiffMax : Nat := 2 ^ 63 - 1

theorem toSize_of_nonneg {value : Int64} (nonneg : 0 ≤ value) :
    (toSize value : Int) = value.toInt := by
  rw [toSize, Int64.toNat_toUInt64_of_le nonneg,
    Int64.toInt_eq_toNatClampNeg nonneg]

/-- A negative word casts to a size above every signed word. -/
theorem toSize_of_neg {value : Int64} (negative : value < 0) :
    2 ^ 63 ≤ toSize value := by
  have below : value.toInt < 0 := by
    simpa using Int64.lt_iff_toInt_lt.mp negative
  have cast : value.toUInt64.toNat = value.toBitVec.toNat := rfl
  rw [toSize, cast]
  rw [← Int64.toInt_toBitVec, BitVec.toInt_eq_toNat_cond] at below
  split at below <;> omega

theorem toInt_ofSize {size : Nat} (small : size < 2 ^ 63) :
    (ofSize size).toInt = size :=
  Int64.toInt_ofNat_of_lt small

theorem ofSize_nonneg {size : Nat} (small : size < 2 ^ 63) :
    0 ≤ ofSize size := by
  rw [Int64.le_iff_toInt_le, toInt_ofSize small]
  simp

theorem toSize_ofSize {size : Nat} (small : size < 2 ^ 63) :
    toSize (ofSize size) = size := by
  have cast := toSize_of_nonneg (ofSize_nonneg small)
  rw [toInt_ofSize small] at cast
  exact_mod_cast cast

/-- A sequence of two computations succeeds through a value of the first. -/
theorem bind_eq_ok {ε α β : Type} {first : Except ε α}
    {next : α → Except ε β} {result : β} :
    (first >>= next) = .ok result ↔
      ∃ value, first = .ok value ∧ next value = .ok result := by
  cases first with
  | error stuck =>
      constructor
      · intro impossible
        cases impossible
      · rintro ⟨_, impossible, _⟩
        cases impossible
  | ok value =>
      constructor
      · intro succeeded
        exact ⟨value, rfl, succeeded⟩
      · rintro ⟨_, same, succeeded⟩
        cases same
        exact succeeded

/-- A sequence of two computations fails in the first or in the second. -/
theorem bind_eq_error {ε α β : Type} {first : Except ε α}
    {next : α → Except ε β} {stuck : ε} :
    (first >>= next) = .error stuck ↔
      first = .error stuck ∨
        ∃ value, first = .ok value ∧ next value = .error stuck := by
  cases first with
  | error reason =>
      constructor
      · intro failed
        cases failed
        exact .inl rfl
      · rintro (failed | ⟨_, impossible, _⟩)
        · cases failed
          rfl
        · cases impossible
  | ok value =>
      constructor
      · intro failed
        exact .inr ⟨value, rfl, failed⟩
      · rintro (impossible | ⟨_, same, failed⟩)
        · cases impossible
        · cases same
          exact failed

end T81VM
