import Mathlib.Algebra.Group.Int.Defs
import Mathlib.Algebra.Group.Nat.Defs
import Mathlib.Data.List.Basic

/-!
# Exact arithmetic on signed words

Bounds on the operands of a 64-bit signed operation under which the word
holds the exact result.
-/

namespace SignedWord

/-- No sum past either end: the room that one operand leaves holds the
other. -/
def AddFits (lhs rhs : Int64) : Prop :=
  if 0 ≤ rhs.toInt then lhs.toInt ≤ 2 ^ 63 - 1 - rhs.toInt
  else -2 ^ 63 - rhs.toInt ≤ lhs.toInt

/-- No difference past either end. -/
def SubFits (lhs rhs : Int64) : Prop :=
  if 0 ≤ rhs.toInt then -2 ^ 63 + rhs.toInt ≤ lhs.toInt
  else lhs.toInt ≤ 2 ^ 63 - 1 + rhs.toInt

/-- The largest magnitude of a product with the given signs. -/
def productRoom (lhs rhs : Int64) : Nat :=
  if lhs.toInt < 0 ↔ rhs.toInt < 0 then 2 ^ 63 - 1 else 2 ^ 63

/-- No product past either end: one magnitude is at most the room divided by
the other. -/
def MulFits (lhs rhs : Int64) : Prop :=
  rhs = 0 ∨ lhs.toInt.natAbs ≤ productRoom lhs rhs / rhs.toInt.natAbs

theorem addFits_iff {lhs rhs : Int64} :
    AddFits lhs rhs ↔
      -2 ^ 63 ≤ lhs.toInt + rhs.toInt ∧ lhs.toInt + rhs.toInt < 2 ^ 63 := by
  have lower := lhs.le_toInt
  have upper := lhs.toInt_lt
  unfold AddFits
  split <;> omega

theorem subFits_iff {lhs rhs : Int64} :
    SubFits lhs rhs ↔
      -2 ^ 63 ≤ lhs.toInt - rhs.toInt ∧ lhs.toInt - rhs.toInt < 2 ^ 63 := by
  have lower := lhs.le_toInt
  have upper := lhs.toInt_lt
  unfold SubFits
  split <;> omega

theorem mulFits_iff {lhs rhs : Int64} :
    MulFits lhs rhs ↔
      -2 ^ 63 ≤ lhs.toInt * rhs.toInt ∧ lhs.toInt * rhs.toInt < 2 ^ 63 := by
  by_cases zero : rhs = 0
  · simp [MulFits, zero]
  · have positive : 0 < rhs.toInt.natAbs := by
      apply Int.natAbs_pos.mpr
      intro same
      exact zero (Int64.toInt_inj.mp (by simpa using same))
    have magnitude : (lhs.toInt * rhs.toInt).natAbs =
        lhs.toInt.natAbs * rhs.toInt.natAbs := Int.natAbs_mul _ _
    have fits : MulFits lhs rhs ↔
        (lhs.toInt * rhs.toInt).natAbs ≤ productRoom lhs rhs := by
      rw [MulFits, or_iff_right zero, Nat.le_div_iff_mul_le positive,
        magnitude]
    rw [fits]
    unfold productRoom
    by_cases signs : lhs.toInt < 0 ↔ rhs.toInt < 0
    · have nonneg : 0 ≤ lhs.toInt * rhs.toInt := by
        by_cases negative : lhs.toInt < 0
        · exact Int.le_of_lt (Int.mul_pos_of_neg_of_neg negative
            (signs.mp negative))
        · have other : ¬ rhs.toInt < 0 := fun below =>
            negative (signs.mpr below)
          exact Int.mul_nonneg (Int.not_lt.mp negative) (Int.not_lt.mp other)
      rw [if_pos signs]
      omega
    · have nonpos : lhs.toInt * rhs.toInt ≤ 0 := by
        by_cases negative : lhs.toInt < 0
        · have other : ¬ rhs.toInt < 0 := fun below =>
            signs ⟨fun _ => below, fun _ => negative⟩
          exact Int.mul_nonpos_of_nonpos_of_nonneg (Int.le_of_lt negative)
            (Int.not_lt.mp other)
        · have other : rhs.toInt < 0 := by
            by_contra above
            exact signs ⟨fun below => absurd below negative,
              fun below => absurd below above⟩
          exact Int.mul_nonpos_of_nonneg_of_nonpos (Int.not_lt.mp negative)
            (Int.le_of_lt other)
      rw [if_neg signs]
      omega

/-- Inside the word, reduction modulo its size does nothing. -/
theorem bmod_eq {exact : Int} (lower : -2 ^ 63 ≤ exact)
    (upper : exact < 2 ^ 63) : exact.bmod (2 ^ 64) = exact :=
  Int.bmod_eq_of_le (by omega) (by omega)

theorem toInt_add {lhs rhs : Int64} (lower : -2 ^ 63 ≤ lhs.toInt + rhs.toInt)
    (upper : lhs.toInt + rhs.toInt < 2 ^ 63) :
    (lhs + rhs).toInt = lhs.toInt + rhs.toInt := by
  rw [Int64.toInt_add, bmod_eq lower upper]

theorem toInt_mul {lhs rhs : Int64} (lower : -2 ^ 63 ≤ lhs.toInt * rhs.toInt)
    (upper : lhs.toInt * rhs.toInt < 2 ^ 63) :
    (lhs * rhs).toInt = lhs.toInt * rhs.toInt := by
  rw [Int64.toInt_mul, bmod_eq lower upper]

/-! ## Words modulo `2 ^ 64` -/

namespace Modular

scoped instance addCommMonoid : AddCommMonoid Int64 where
  add_assoc := Int64.add_assoc
  zero := 0
  zero_add := Int64.zero_add
  add_zero := Int64.add_zero
  add_comm := Int64.add_comm
  nsmul := nsmulRec

scoped instance commMagma : CommMagma Int64 where
  mul_comm := Int64.mul_comm

end Modular

end SignedWord
