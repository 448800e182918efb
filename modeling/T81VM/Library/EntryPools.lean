import Mathlib.Logic.Function.Basic
import Mathlib.Logic.Relation

/-!
# Append-only pools of entries

Pools of several kinds, whose entries hold plain data or refer to one entry.
When an entry refers to an existing one at its creation, the order of creation
ranks the entries: references descend, so none is circular and unfolding ends.
-/

namespace EntryPools

variable {κ : Type}

/-- The content of every entry: plain data, or the entry it refers to. -/
abbrev Pools (κ : Type) := κ → List (Option (κ × Nat))

def Contains (pools : Pools κ) (entry : κ × Nat) : Prop :=
  entry.2 < (pools entry.1).length

def RefersTo (pools : Pools κ) (entry target : κ × Nat) : Prop :=
  (pools entry.1)[entry.2]? = some (some target)

/-- Append an entry to the pool of its kind. -/
def push [DecidableEq κ] (pools : Pools κ) (kind : κ)
    (content : Option (κ × Nat)) : Pools κ :=
  Function.update pools kind (pools kind ++ [content])

/-- A rank below `count` along which every reference descends. -/
structure Ranked (pools : Pools κ) (rank : κ × Nat → Nat)
    (count : Nat) : Prop where
  bounded : ∀ entry, Contains pools entry → rank entry < count
  closed : ∀ entry target, RefersTo pools entry target →
    Contains pools target
  descends : ∀ entry target, RefersTo pools entry target →
    rank target < rank entry

/-- Unfolding the entry reaches plain data after this many contents. -/
inductive Unfolds (pools : Pools κ) : κ × Nat → Nat → Prop where
  | plain {entry : κ × Nat}
      (content : (pools entry.1)[entry.2]? = some none) :
      Unfolds pools entry 1
  | refers {entry target : κ × Nat} {count : Nat}
      (reference : RefersTo pools entry target)
      (rest : Unfolds pools target count) :
      Unfolds pools entry (count + 1)

section Push

variable [DecidableEq κ] {pools : Pools κ} {kind : κ}
  {content : Option (κ × Nat)}

theorem contains_push {entry : κ × Nat} :
    Contains (push pools kind content) entry ↔
      Contains pools entry ∨ entry = (kind, (pools kind).length) := by
  obtain ⟨other, index⟩ := entry
  by_cases same : other = kind
  · subst same
    simp only [Contains, push, Function.update_self, List.length_append,
      List.length_singleton, Prod.mk.injEq, true_and]
    omega
  · simp [Contains, push, same]

theorem refersTo_push {entry target : κ × Nat} :
    RefersTo (push pools kind content) entry target ↔
      RefersTo pools entry target ∨
        entry = (kind, (pools kind).length) ∧ content = some target := by
  obtain ⟨other, index⟩ := entry
  by_cases same : other = kind
  · subst same
    simp only [RefersTo, push, Function.update_self, Prod.mk.injEq, true_and]
    rcases Nat.lt_trichotomy index (pools other).length with
      below | equal | above
    · have distinct : index ≠ (pools other).length := Nat.ne_of_lt below
      simp [List.getElem?_append_left below, distinct]
    · subst equal
      simp
    · have distinct : index ≠ (pools other).length := Nat.ne_of_gt above
      have past : (pools other ++ [content]).length ≤ index := by
        rw [List.length_append]
        exact above
      rw [List.getElem?_eq_none past,
        List.getElem?_eq_none (Nat.le_of_lt above)]
      simp [distinct]
  · simp [RefersTo, push, same]

/-- Rank the new entry above all others. -/
theorem Ranked.push {rank : κ × Nat → Nat} {count : Nat}
    (ranked : Ranked pools rank count)
    (valid : ∀ target, content = some target → Contains pools target) :
    Ranked (push pools kind content)
      (Function.update rank (kind, (pools kind).length) count)
      (count + 1) := by
  have old : ∀ entry, Contains pools entry →
      entry ≠ (kind, (pools kind).length) := by
    rintro entry inside rfl
    exact Nat.lt_irrefl _ inside
  have source : ∀ {entry target}, RefersTo pools entry target →
      Contains pools entry :=
    fun reference => (List.getElem?_eq_some_iff.mp reference).1
  refine ⟨?_, ?_, ?_⟩
  · intro entry inside
    rcases contains_push.mp inside with inside | rfl
    · rw [Function.update_of_ne (old entry inside)]
      exact Nat.lt_succ_of_lt (ranked.bounded entry inside)
    · rw [Function.update_self]
      exact Nat.lt_succ_self count
  · intro entry target reference
    apply contains_push.mpr
    rcases refersTo_push.mp reference with reference | ⟨_, named⟩
    · exact .inl (ranked.closed entry target reference)
    · exact .inl (valid target named)
  · intro entry target reference
    rcases refersTo_push.mp reference with reference | ⟨rfl, named⟩
    · have inside := ranked.closed entry target reference
      rw [Function.update_of_ne (old target inside),
        Function.update_of_ne (old entry (source reference))]
      exact ranked.descends entry target reference
    · have inside := valid target named
      rw [Function.update_self, Function.update_of_ne (old target inside)]
      exact ranked.bounded target inside

end Push

variable {pools : Pools κ} {rank : κ × Nat → Nat} {count : Nat}

theorem Ranked.descends_transGen (ranked : Ranked pools rank count)
    {entry target : κ × Nat}
    (chain : Relation.TransGen (RefersTo pools) entry target) :
    rank target < rank entry := by
  induction chain with
  | single reference => exact ranked.descends _ _ reference
  | tail _ reference induction =>
      exact Nat.lt_trans (ranked.descends _ _ reference) induction

/-- No entry refers to itself, directly or through others. -/
theorem Ranked.acyclic (ranked : Ranked pools rank count)
    (entry : κ × Nat) :
    ¬ Relation.TransGen (RefersTo pools) entry entry := by
  intro cycle
  exact Nat.lt_irrefl _ (ranked.descends_transGen cycle)

/-- Unfolding an entry ends after at most `count` contents. -/
theorem Ranked.unfolds (ranked : Ranked pools rank count)
    {entry : κ × Nat} (inside : Contains pools entry) :
    ∃ unfoldings, unfoldings ≤ count ∧ Unfolds pools entry unfoldings := by
  suffices bounded : ∃ unfoldings, unfoldings ≤ rank entry + 1 ∧
      Unfolds pools entry unfoldings by
    obtain ⟨unfoldings, small, unfolds⟩ := bounded
    have below := ranked.bounded entry inside
    exact ⟨unfoldings, Nat.le_trans small below, unfolds⟩
  -- Strong induction on the rank: a referenced entry has a smaller one.
  induction bound : rank entry using Nat.strongRecOn
    generalizing entry with
  | _ value induction =>
      obtain ⟨content, found⟩ : ∃ content,
          (pools entry.1)[entry.2]? = some content :=
        ⟨_, List.getElem?_eq_getElem inside⟩
      cases content with
      | none => exact ⟨1, Nat.le_add_left 1 value, .plain found⟩
      | some target =>
          have smaller := ranked.descends entry target found
          rw [bound] at smaller
          obtain ⟨unfoldings, small, unfolds⟩ := induction (rank target)
            smaller (ranked.closed entry target found) rfl
          exact ⟨unfoldings + 1, by omega, .refers found unfolds⟩

end EntryPools
