import Mathlib.Data.Nat.Digits.Lemmas

/-!
# Hexadecimal numerals in ASCII

Lower-case numerals, filled up with zeros to the width of a field.
-/

namespace Hexadecimal

/-- The digit of a value below sixteen. -/
def digit (value : Nat) : UInt8 :=
  if value < 10 then UInt8.ofNat (48 + value) else UInt8.ofNat (87 + value)

/-- The value of a digit. -/
def digitValue (byte : UInt8) : Nat :=
  if byte.toNat < 58 then byte.toNat - 48 else byte.toNat - 87

def isDigit (byte : UInt8) : Bool :=
  (48 ≤ byte && byte ≤ 57) || (97 ≤ byte && byte ≤ 102)

/-- The digits of a natural number, most significant first. -/
def natural (value : Nat) : List UInt8 :=
  if value = 0 then [digit 0] else (Nat.digits 16 value).reverse.map digit

/-- A number in a field that is filled up with zeros. -/
def padded (width value : Nat) : List UInt8 :=
  List.replicate (width - (natural value).length) (digit 0) ++ natural value

/-- The value of a string of digits. -/
def value (digits : List UInt8) : Nat :=
  digits.foldl (fun total byte => 16 * total + digitValue byte) 0

theorem digitValue_digit {value : Nat} (small : value < 16) :
    digitValue (digit value) = value := by
  unfold digitValue digit
  split <;> simp only [UInt8.toNat_ofNat'] <;> split <;> omega

theorem isDigit_digit {value : Nat} (small : value < 16) :
    isDigit (digit value) = true := by
  unfold digit
  split <;>
  · simp only [isDigit, Bool.or_eq_true, Bool.and_eq_true,
      decide_eq_true_iff, UInt8.le_iff_toNat_le, UInt8.toNat_ofNat',
      UInt8.reduceToNat]
    omega

theorem natural_isDigit (number : Nat) :
    ∀ byte ∈ natural number, isDigit byte = true := by
  intro byte member
  unfold natural at member
  split at member
  · rw [List.mem_singleton] at member
    subst byte
    exact isDigit_digit (by omega)
  · obtain ⟨value, valueMember, rfl⟩ := List.mem_map.mp member
    exact isDigit_digit (Nat.digits_lt_base (by omega)
      (List.mem_reverse.mp valueMember))

theorem padded_isDigit (width number : Nat) :
    ∀ byte ∈ padded width number, isDigit byte = true := by
  intro byte member
  rcases List.mem_append.mp member with filled | own
  · rw [List.eq_of_mem_replicate filled]
    exact isDigit_digit (by omega)
  · exact natural_isDigit number byte own

/-- A number that fits the field fills it exactly. -/
theorem length_padded {width number : Nat} (positive : 0 < width)
    (fits : number < 16 ^ width) : (padded width number).length = width := by
  have short : (natural number).length ≤ width := by
    unfold natural
    split
    · exact positive
    · rw [List.length_map, List.length_reverse]
      exact (Nat.digits_length_le_iff (by omega) number).mpr fits
  rw [padded, List.length_append, List.length_replicate]
  omega

private theorem value_reverse_map_digit (digits : List Nat)
    (small : ∀ value ∈ digits, value < 16) :
    value (digits.reverse.map digit) = Nat.ofDigits 16 digits := by
  induction digits with
  | nil => rfl
  | cons head tail induction =>
      have headSmall : head < 16 := small head List.mem_cons_self
      have tailValue := induction
        fun value member => small value (List.mem_cons_of_mem _ member)
      rw [value] at tailValue
      rw [value, List.reverse_cons, List.map_append, List.foldl_append,
        tailValue]
      simp only [List.map_cons, List.map_nil, List.foldl_cons,
        List.foldl_nil, digitValue_digit headSmall, Nat.ofDigits_cons]
      omega

theorem value_natural (number : Nat) : value (natural number) = number := by
  unfold natural
  split
  · rename_i zero
    subst zero
    rfl
  · rw [value_reverse_map_digit]
    · exact Nat.ofDigits_digits 16 number
    · intro digitValue member
      exact Nat.digits_lt_base (by omega) member

/-- Zeros in front do not count. -/
theorem value_padded (width number : Nat) :
    value (padded width number) = number := by
  have zeros : ∀ count, (List.replicate count (digit 0)).foldl
      (fun total byte => 16 * total + digitValue byte) 0 = 0 := by
    intro count
    induction count with
    | zero => rfl
    | succ count induction =>
        rw [List.replicate_succ, List.foldl_cons]
        exact induction
  rw [value, padded, List.foldl_append, zeros]
  exact value_natural number

theorem padded_injective (width : Nat) :
    Function.Injective (padded width) := by
  intro first second same
  rw [← value_padded width first, same, value_padded]

end Hexadecimal
