import Mathlib.Data.List.Basic
import Mathlib.Logic.Function.Basic

/-!
# FNV-1a

The hash absorbs one byte after the other: exclusive or, then multiplication
by a constant modulo `2 ^ 64`.  When the constant has an inverse, absorbing is
injective in the hash and in the byte, so start values stay apart and bytes
that differ once have different hashes.
-/

namespace Fnv1a

section Lists

variable {α σ : Type*} {left right : List α}

/-- Lists of one length that differ at exactly one position. -/
def OneApart (left right : List α) : Prop :=
  left.length = right.length ∧
    ∃! index : Nat, left[index]? ≠ right[index]?

theorem OneApart.of_append {front back : List α} {one other : α}
    (different : one ≠ other) :
    OneApart (front ++ one :: back) (front ++ other :: back) := by
  refine ⟨by simp, front.length, by simpa using different, ?_⟩
  intro index apart
  by_contra elsewhere
  apply apart
  rcases Nat.lt_or_gt_of_ne elsewhere with before | after
  · rw [List.getElem?_append_left before, List.getElem?_append_left before]
  · obtain ⟨offset, rfl⟩ := Nat.exists_eq_add_of_lt after
    rw [List.getElem?_append_right (by omega),
      List.getElem?_append_right (by omega)]
    have position : front.length + offset + 1 - front.length = offset + 1 := by
      omega
    rw [position, List.getElem?_cons_succ, List.getElem?_cons_succ]

theorem OneApart.exists_append (apart : OneApart left right) :
    ∃ front one other back, one ≠ other ∧
      left = front ++ one :: back ∧ right = front ++ other :: back := by
  obtain ⟨lengths, index, different, unique⟩ := apart
  have elsewhere : ∀ position : Nat, position ≠ index →
      left[position]? = right[position]? := by
    intro position distinct
    by_contra apart
    exact distinct (unique position apart)
  have inside : index < left.length := by
    by_contra outside
    apply different
    rw [List.getElem?_eq_none (by omega), List.getElem?_eq_none (by omega)]
  have insideRight : index < right.length := by omega
  have fronts : left.take index = right.take index := by
    apply List.ext_getElem?
    intro position
    rw [List.getElem?_take, List.getElem?_take]
    split
    · exact elsewhere position (by omega)
    · rfl
  have backs : left.drop (index + 1) = right.drop (index + 1) := by
    apply List.ext_getElem?
    intro position
    rw [List.getElem?_drop, List.getElem?_drop]
    exact elsewhere _ (by omega)
  refine ⟨left.take index, left[index], right[index], left.drop (index + 1),
    ?_, ?_, ?_⟩
  · intro same
    apply different
    rw [List.getElem?_eq_getElem inside,
      List.getElem?_eq_getElem insideRight, same]
  · rw [List.getElem_cons_drop, List.take_append_drop]
  · rw [fronts, backs, List.getElem_cons_drop, List.take_append_drop]

variable {step : σ → α → σ}

/-- Steps that are injective in the state keep states apart. -/
theorem foldl_injective
    (keeps : ∀ item, Function.Injective fun state => step state item)
    (items : List α) :
    Function.Injective fun state => items.foldl step state := by
  induction items with
  | nil =>
      intro one other same
      exact same
  | cons item items induction =>
      intro one other same
      exact keeps item (induction same)

/-- Steps that are also injective in the item tell lists apart that differ
once. -/
theorem OneApart.foldl_ne (apart : OneApart left right)
    (keeps : ∀ item, Function.Injective fun state => step state item)
    (separates : ∀ state, Function.Injective (step state)) (start : σ) :
    left.foldl step start ≠ right.foldl step start := by
  obtain ⟨front, one, other, back, different, rfl, rfl⟩ :=
    apart.exists_append
  intro same
  rw [List.foldl_append, List.foldl_append, List.foldl_cons,
    List.foldl_cons] at same
  have absorbed := foldl_injective keeps back same
  exact different (separates _ absorbed)

end Lists

/-! ## The hash -/

/-- Absorb one byte. -/
def absorb (prime hash : UInt64) (byte : UInt8) : UInt64 :=
  (hash ^^^ byte.toUInt64) * prime

def hash (basis prime : UInt64) (bytes : List UInt8) : UInt64 :=
  bytes.foldl (absorb prime) basis

/-- The parameters of the 64-bit hash. -/
def offsetBasis : UInt64 := 14695981039346656037
def prime : UInt64 := 1099511628211

/-- The 64-bit FNV-1a hash. -/
def fnv1a64 (bytes : List UInt8) : UInt64 :=
  hash offsetBasis prime bytes

/-- The bytes of a word, the least significant one first. -/
def littleEndian (word : UInt64) : List UInt8 :=
  (List.range 8).map fun index =>
    (word >>> UInt64.ofNat (index * 8)).toUInt8

section Injective

variable {prime inverse : UInt64} (unit : prime * inverse = 1)

include unit

theorem mul_right_cancel {left right : UInt64}
    (same : left * prime = right * prime) : left = right := by
  have restored := congrArg (· * inverse) same
  simpa only [UInt64.mul_assoc, unit, UInt64.mul_one] using restored

theorem absorb_injective_hash (byte : UInt8) :
    Function.Injective fun hash => absorb prime hash byte := by
  intro left right same
  exact (UInt64.xor_left_inj _).mp (mul_right_cancel unit same)

theorem absorb_injective_byte (hash : UInt64) :
    Function.Injective (absorb prime hash) := by
  intro left right same
  have mixed := mul_right_cancel unit same
  rw [UInt64.xor_comm hash, UInt64.xor_comm hash] at mixed
  have words := (UInt64.xor_left_inj _).mp mixed
  exact UInt8.toUInt64_inj.mp words

/-- The hash of the same bytes from another start value is another one. -/
theorem hash_ne_of_basis {basis other : UInt64} (different : basis ≠ other)
    (bytes : List UInt8) : hash basis prime bytes ≠ hash other prime bytes := by
  intro same
  exact different (foldl_injective (absorb_injective_hash unit) bytes same)

/-- Bytes that differ once have different hashes. -/
theorem hash_ne_of_oneApart {left right : List UInt8}
    (apart : OneApart left right) (basis : UInt64) :
    hash basis prime left ≠ hash basis prime right :=
  apart.foldl_ne (absorb_injective_hash unit) (absorb_injective_byte unit)
    basis

end Injective

end Fnv1a
