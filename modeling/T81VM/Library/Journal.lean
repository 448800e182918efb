import Mathlib.Logic.Function.Basic

/-!
# Journals of writes

A file of cells is changed by single writes, and a journal notes at most one
write for every event.  A journal that notes each write accounts for the file:
replaying it from the initial file rebuilds the present one.
-/

namespace Journal

variable {κ ν : Type} [DecidableEq κ]

/-- What one event writes: nothing, or a cell and its new content. -/
abbrev Delta (κ ν : Type) := Option (κ × ν)

def apply (file : κ → ν) : Delta κ ν → κ → ν
  | none => file
  | some (cell, content) => Function.update file cell content

/-- The file after all events of the journal. -/
def replay (start : κ → ν) (journal : List (Delta κ ν)) : κ → ν :=
  journal.foldl apply start

variable {start file : κ → ν} {journal : List (Delta κ ν)}

theorem replay_append_one {delta : Delta κ ν} :
    replay start (journal ++ [delta]) = apply (replay start journal) delta := by
  rw [replay, List.foldl_append]
  rfl

/-- An event that changes the file by what the journal notes of it leaves the
journal accounting for the file. -/
theorem replay_append_eq {delta : Delta κ ν} {next : κ → ν}
    (accounts : replay start journal = file)
    (noted : next = apply file delta) :
    replay start (journal ++ [delta]) = next := by
  rw [replay_append_one, accounts, noted]

end Journal
