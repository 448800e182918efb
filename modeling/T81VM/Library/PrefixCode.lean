import Mathlib.Data.List.Basic

/-!
# Codes that are read from the front

A list of code words followed by a terminator is read back when no word begins
another one or the terminator.
-/

namespace PrefixCode

variable {α β : Type}

/-- What follows a word of the code, or the terminator, is told apart by its
beginning. -/
structure Readable (code : α → List β) (stop : List β) : Prop where
  word : ∀ {first second rest rest'},
    code first ++ rest = code second ++ rest' → first = second ∧ rest = rest'
  stops : ∀ {item rest rest'}, code item ++ rest ≠ stop ++ rest'

variable {code : α → List β} {stop : List β}

/-- A reader of one word shows that a code is readable. -/
theorem readable_of_reader (read : List β → Option (α × List β))
    (reads : ∀ item rest, read (code item ++ rest) = some (item, rest))
    (ends : ∀ rest, read (stop ++ rest) = none) : Readable code stop := by
  constructor
  · intro first second rest rest' same
    have again := congrArg read same
    rw [reads, reads] at again
    exact Prod.mk.inj (Option.some.inj again)
  · intro item rest rest' same
    have again := congrArg read same
    rw [reads, ends] at again
    cases again

/-- The items and what follows the terminator are determined. -/
theorem Readable.flatMap_inj (readable : Readable code stop)
    {items others : List α} {rest rest' : List β}
    (same : items.flatMap code ++ (stop ++ rest) =
      others.flatMap code ++ (stop ++ rest')) :
    items = others ∧ rest = rest' := by
  induction items generalizing others with
  | nil =>
      cases others with
      | nil => exact ⟨rfl, List.append_cancel_left same⟩
      | cons other others =>
          rw [List.flatMap_cons, List.append_assoc] at same
          exact absurd same.symm readable.stops
  | cons item items induction =>
      cases others with
      | nil =>
          rw [List.flatMap_cons, List.append_assoc] at same
          exact absurd same readable.stops
      | cons other others =>
          rw [List.flatMap_cons, List.flatMap_cons, List.append_assoc,
            List.append_assoc] at same
          obtain ⟨rfl, later⟩ := readable.word same
          obtain ⟨rfl, sameRest⟩ := induction later
          exact ⟨rfl, sameRest⟩

theorem Readable.flatMap_injective (readable : Readable code stop) :
    Function.Injective fun items : List α => items.flatMap code := by
  intro items others same
  have closed : items.flatMap code ++ (stop ++ []) =
      others.flatMap code ++ (stop ++ []) :=
    congrArg (· ++ (stop ++ [])) same
  exact (readable.flatMap_inj closed).1

/-- A field ends at the first separator. -/
theorem separated_inj {separator : β} {field field' rest rest' : List β}
    (clean : separator ∉ field) (clean' : separator ∉ field')
    (same : field ++ separator :: rest = field' ++ separator :: rest') :
    field = field' ∧ rest = rest' := by
  induction field generalizing field' with
  | nil =>
      cases field' with
      | nil => exact ⟨rfl, (List.cons.inj same).2⟩
      | cons head tail =>
          have heads := (List.cons.inj same).1
          subst heads
          exact absurd List.mem_cons_self clean'
  | cons head tail induction =>
      cases field' with
      | nil =>
          have heads := (List.cons.inj same).1
          subst heads
          exact absurd List.mem_cons_self clean
      | cons head' tail' =>
          obtain ⟨sameHead, sameTail⟩ := List.cons.inj same
          obtain ⟨rfl, sameRest⟩ := induction
            (fun member => clean (List.mem_cons_of_mem _ member))
            (fun member => clean' (List.mem_cons_of_mem _ member)) sameTail
          exact ⟨congrArg (· :: tail) sameHead, sameRest⟩

/-- A field ends where a label that begins with the separator follows. -/
theorem field_inj {separator : β} {label field field' rest rest' : List β}
    (begins : label.head? = some separator) (clean : separator ∉ field)
    (clean' : separator ∉ field')
    (same : field ++ (label ++ rest) = field' ++ (label ++ rest')) :
    field = field' ∧ rest = rest' := by
  obtain ⟨tail, rfl⟩ := List.head?_eq_some_iff.mp begins
  obtain ⟨sameField, later⟩ := separated_inj clean clean' same
  exact ⟨sameField, List.append_cancel_left later⟩

/-- Fields under the same labels are read back, when every label begins with
the separator that ends a field. -/
theorem labelled_inj {ι : Type} {separator : β}
    {label field field' : ι → List β} {items : List ι}
    (begins : ∀ item, (label item).head? = some separator)
    (clean : ∀ item, separator ∉ field item)
    (clean' : ∀ item, separator ∉ field' item)
    (same : items.flatMap (fun item => label item ++ field item) =
      items.flatMap (fun item => label item ++ field' item)) :
    ∀ item ∈ items, field item = field' item := by
  -- A separator behind the fields makes the last one end like the others.
  have closes : ∀ (items : List ι) (field : ι → List β), ∃ tail,
      items.flatMap (fun item => label item ++ field item) ++ [separator] =
        separator :: tail := by
    intro items field
    cases items with
    | nil => exact ⟨[], rfl⟩
    | cons item items =>
        obtain ⟨tail, head⟩ := List.head?_eq_some_iff.mp (begins item)
        rw [List.flatMap_cons, head]
        exact ⟨_, rfl⟩
  have closed := congrArg (· ++ [separator]) same
  clear same
  induction items with
  | nil => exact fun _ member => absurd member List.not_mem_nil
  | cons item items induction =>
      obtain ⟨tail, ends⟩ := closes items field
      obtain ⟨tail', ends'⟩ := closes items field'
      simp only [List.flatMap_cons, List.append_assoc] at closed
      have after := List.append_cancel_left closed
      rw [ends, ends'] at after
      obtain ⟨here, later⟩ := separated_inj (clean item) (clean' item) after
      rw [later, ← ends'] at ends
      intro other member
      rcases List.mem_cons.mp member with rfl | member
      · exact here
      · exact induction ends other member

/-- Lines are read back from a text in which each is terminated. -/
theorem terminated_inj {terminator : β} {lines others : List (List β)}
    (clean : ∀ line ∈ lines, terminator ∉ line)
    (clean' : ∀ line ∈ others, terminator ∉ line)
    (same : lines.flatMap (· ++ [terminator]) =
      others.flatMap (· ++ [terminator])) : lines = others := by
  induction lines generalizing others with
  | nil =>
      cases others with
      | nil => rfl
      | cons other others =>
          rw [List.flatMap_nil, List.flatMap_cons] at same
          exact absurd same.symm (by simp)
  | cons line lines induction =>
      cases others with
      | nil =>
          rw [List.flatMap_nil, List.flatMap_cons] at same
          exact absurd same (by simp)
      | cons other others =>
          rw [List.flatMap_cons, List.flatMap_cons, List.append_assoc,
            List.append_assoc] at same
          obtain ⟨rfl, later⟩ := separated_inj (clean _ List.mem_cons_self)
            (clean' _ List.mem_cons_self) same
          have rest := induction
            (fun item member => clean item (List.mem_cons_of_mem _ member))
            (fun item member => clean' item (List.mem_cons_of_mem _ member))
            later
          rw [rest]

end PrefixCode
