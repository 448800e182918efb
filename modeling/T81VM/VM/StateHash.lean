import T81VM.Library.Fnv1a
import T81VM.VM.Summary

/-!
# The hash of a state

`stateHash` is the FNV-1a fold of the bytes of its words, but from another
start value than the published one.
-/

namespace T81VM.VM

open Fnv1a

/-- The bytes that `mixU64` absorbs, in order. -/
def stateBytes (state : State) : List UInt8 :=
  (stateWords state).flatMap littleEndian

/-! ## Words and bytes -/

theorem and_low_byte (word : UInt64) : word &&& 0xff = word % 256 := by
  apply UInt64.toNat_inj.mp
  rw [UInt64.toNat_and, UInt64.toNat_mod]
  exact Nat.and_two_pow_sub_one_eq_mod word.toNat 8

theorem byteAt_eq (word : UInt64) (index : Nat) :
    byteAt word index =
      (word >>> UInt64.ofNat (index * 8)).toUInt8.toUInt64 := by
  rw [byteAt, and_low_byte, UInt64.toUInt64_toUInt8]

/-- Mixing a word absorbs its bytes. -/
theorem mixU64_eq (hash word : UInt64) :
    mixU64 hash word = (littleEndian word).foldl (absorb fnvPrime) hash := by
  rw [mixU64, littleEndian, List.foldl_map]
  simp only [absorb, byteAt_eq]

/-- The hash is an FNV-1a fold of the bytes of the state. -/
theorem stateHash_eq (state : State) :
    stateHash state =
      Fnv1a.hash fnvOffsetBasis fnvPrime (stateBytes state) := by
  have mixes : mixU64 = fun hash word =>
      (littleEndian word).foldl (absorb fnvPrime) hash := by
    funext hash word
    exact mixU64_eq hash word
  rw [stateHash, stateBytes, Fnv1a.hash, List.foldl_flatMap, mixes]

/-- The inverse of the prime modulo `2 ^ 64`. -/
theorem fnvPrime_unit : fnvPrime * 14886173955864302971 = 1 := by decide

theorem stateBytes_length (state : State) :
    (stateBytes state).length = (stateWords state).length * 8 := by
  simp [stateBytes, littleEndian]

/-! ## Single bytes -/

/-- States with the same number of words whose bytes differ at one position
have different hashes. -/
theorem stateHash_ne_of_oneByte {left right : State}
    (words : (stateWords left).length = (stateWords right).length)
    (apart : ∃! index : Nat,
      (stateBytes left)[index]? ≠ (stateBytes right)[index]?) :
    stateHash left ≠ stateHash right := by
  have lengths : (stateBytes left).length = (stateBytes right).length := by
    rw [stateBytes_length, stateBytes_length, words]
  rw [stateHash_eq, stateHash_eq]
  exact hash_ne_of_oneApart fnvPrime_unit ⟨lengths, apart⟩ fnvOffsetBasis

/-- The flag of a halted machine is one byte of its words. -/
theorem stateHash_ne_of_oneByte_halted :
    (stateWords {}).length = (stateWords { halted := true }).length ∧
      (∃! index : Nat, (stateBytes {})[index]? ≠
        (stateBytes { halted := true })[index]?) ∧
      stateHash {} ≠ stateHash { halted := true } := by
  have words : (stateWords {}).length =
      (stateWords { halted := true }).length := rfl
  have running : stateBytes {} = littleEndian 0 ++ 0 ::
      ((littleEndian 0).tail ++
        ((stateWords {}).drop 2).flatMap littleEndian) := rfl
  have halted : stateBytes { halted := true } = littleEndian 0 ++ 1 ::
      ((littleEndian 0).tail ++
        ((stateWords {}).drop 2).flatMap littleEndian) := rfl
  have apart : ∃! index : Nat, (stateBytes {})[index]? ≠
      (stateBytes { halted := true })[index]? := by
    rw [running, halted]
    exact (OneApart.of_append (by decide)).2
  exact ⟨words, apart, stateHash_ne_of_oneByte words apart⟩

/-! ## The published hash -/

/-- The hash is the FNV-1a fold of the bytes of the state, and since it starts
from another value it is never their FNV-1a hash. -/
theorem stateHash_ne_fnv1a64 (state : State) :
    stateHash state =
        Fnv1a.hash 1469598103934665603 Fnv1a.prime (stateBytes state) ∧
      stateHash state ≠ fnv1a64 (stateBytes state) := by
  have folded := stateHash_eq state
  refine ⟨folded, ?_⟩
  rw [folded]
  exact hash_ne_of_basis fnvPrime_unit (by decide) (stateBytes state)

/-- The initial state does not have the published hash. -/
theorem not_fnv1a64_initial :
    ¬ ∀ state, stateHash state = fnv1a64 (stateBytes state) := by
  intro published
  have same := published {}
  rw [stateHash_eq] at same
  exact hash_ne_of_basis fnvPrime_unit (by decide) (stateBytes {}) same

end T81VM.VM
