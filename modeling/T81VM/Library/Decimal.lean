import Mathlib.Data.Nat.Digits.Defs

/-!
# Decimal numerals in ASCII

Rendering a number and reading the value of a digit string.
-/

namespace Decimal

/-- The ASCII digit of a value below ten. -/
def digit (value : Nat) : UInt8 :=
  UInt8.ofNat (48 + value)

/-- The digits of a natural number, most significant first. -/
def natural (value : Nat) : List UInt8 :=
  if value = 0 then [digit 0] else (Nat.digits 10 value).reverse.map digit

/-- An integer with a leading `-` when it is negative. -/
def integer (value : Int) : List UInt8 :=
  if value < 0 then 45 :: natural value.natAbs else natural value.natAbs

/-- The value of a string of digits. -/
def value (digits : List UInt8) : Nat :=
  digits.foldl (fun total byte => 10 * total + (byte.toNat - 48)) 0

def isDigit (byte : UInt8) : Bool :=
  48 ≤ byte && byte ≤ 57

theorem digit_toNat {value : Nat} (small : value < 10) :
    (digit value).toNat = 48 + value := by
  simp only [digit, UInt8.toNat_ofNat']
  omega

theorem isDigit_digit {value : Nat} (small : value < 10) :
    isDigit (digit value) = true := by
  rw [isDigit, Bool.and_eq_true, decide_eq_true_iff, decide_eq_true_iff,
    UInt8.le_iff_toNat_le, UInt8.le_iff_toNat_le, digit_toNat small]
  simp only [UInt8.reduceToNat]
  omega

/-- Every byte of a rendered number is a digit. -/
theorem natural_isDigit (number : Nat) :
    ∀ byte ∈ natural number, isDigit byte = true := by
  intro byte member
  unfold natural at member
  split at member
  · rw [List.mem_singleton] at member
    subst byte
    exact isDigit_digit (by omega)
  · obtain ⟨value, valueMember, rfl⟩ := List.mem_map.mp member
    exact isDigit_digit (Nat.digits_lt_base (by omega)
      (List.mem_reverse.mp valueMember))

theorem natural_ne_nil (number : Nat) : natural number ≠ [] := by
  unfold natural
  split
  · simp
  · rename_i nonzero
    simp [Nat.digits_ne_nil_iff_ne_zero, nonzero]

private theorem value_reverse_map_digit (digits : List Nat)
    (small : ∀ value ∈ digits, value < 10) :
    value (digits.reverse.map digit) = Nat.ofDigits 10 digits := by
  induction digits with
  | nil => rfl
  | cons head tail induction =>
      have headSmall : head < 10 := small head (by simp)
      have tailSmall : ∀ value ∈ tail, value < 10 := by
        intro value member
        exact small value (by simp [member])
      have tailValue := induction tailSmall
      rw [value] at tailValue
      rw [value, List.reverse_cons, List.map_append, List.foldl_append,
        tailValue]
      simp only [List.map_cons, List.map_nil, List.foldl_cons,
        List.foldl_nil, digit_toNat headSmall, Nat.ofDigits_cons]
      omega

/-- Reading a rendered number gives the number back. -/
theorem value_natural (number : Nat) : value (natural number) = number := by
  unfold natural
  split
  · rename_i zero
    subst zero
    rfl
  · rw [value_reverse_map_digit]
    · exact Nat.ofDigits_digits 10 number
    · intro digitValue member
      exact Nat.digits_lt_base (by omega) member

theorem natural_injective : Function.Injective natural := by
  intro first second same
  rw [← value_natural first, same, value_natural]

/-- The sign of an integer shows in its first byte. -/
theorem integer_injective : Function.Injective integer := by
  have unsigned : ∀ {first second : Nat},
      natural first ≠ 45 :: natural second := by
    intro first second same
    have digit := natural_isDigit first 45 (by
      rw [same]
      exact List.mem_cons_self)
    exact absurd digit (by decide)
  intro first second same
  unfold integer at same
  split at same
  · split at same
    · have magnitudes := natural_injective (List.cons.inj same).2
      omega
    · exact absurd same.symm unsigned
  · split at same
    · exact absurd same unsigned
    · have magnitudes := natural_injective same
      omega

/-- A rendered integer has only digits and a sign. -/
theorem integer_bytes (number : Int) :
    ∀ byte ∈ integer number, byte = 45 ∨ isDigit byte = true := by
  intro byte member
  unfold integer at member
  split at member
  · rcases List.mem_cons.mp member with sign | digits
    · exact .inl sign
    · exact .inr (natural_isDigit _ byte digits)
  · exact .inr (natural_isDigit _ byte member)

end Decimal
