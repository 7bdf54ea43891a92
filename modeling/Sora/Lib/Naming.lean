import Mathlib.Data.List.Nodup
import Mathlib.Data.List.Perm.Subperm

/-!
# Giving out names

Objects get names one after the other, each the first of its candidates that is free.  A table from
references to names can then be read both ways, provided that no reference and no name stands twice
in it.
-/

namespace Sora.Lib.Naming

open List

section Names

variable {β : Type} [BEq β] [LawfulBEq β]

/-- Of different names, one more than there are used ones, one is free. -/
theorem exists_free {name : Nat → β} (injective : Function.Injective name) (used : List β) :
    ∃ i < used.length + 1, name i ∉ used := by
  by_contra taken
  push Not at taken
  have inside : (range (used.length + 1)).map name ⊆ used := by
    intro n listed
    obtain ⟨i, below, rfl⟩ := mem_map.mp listed
    exact taken i (mem_range.mp below)
  have size := (subperm_of_subset (nodup_range.map injective) inside).length_le
  rw [length_map, length_range] at size
  omega

def firstFree (candidate : Nat → β) (bound : Nat) (used : List β) : β :=
  candidate (((List.range bound).find? fun i => !decide (candidate i ∈ used)).getD 0)

theorem firstFree_notMem {candidate : Nat → β} {bound : Nat} {used : List β}
    (some : ∃ i < bound, candidate i ∉ used) : firstFree candidate bound used ∉ used := by
  obtain ⟨i, below, free⟩ := some
  have found : ((range bound).find? fun i => !decide (candidate i ∈ used)).isSome := by
    rw [find?_isSome]
    exact ⟨i, mem_range.mpr below, by simpa using free⟩
  obtain ⟨first, same⟩ := Option.isSome_iff_exists.mp found
  have free := find?_some same
  rw [firstFree, same]
  simpa using free

end Names

section Objects

variable {α β : Type}

/-- The names of a list of objects, each free of those before it. -/
def nameAll (pick : α → List β → β) : List α → List β → List β
  | [], _ => []
  | x :: rest, used => pick x used :: nameAll pick rest (pick x used :: used)

variable {pick : α → List β → β}

theorem length_nameAll (l : List α) (used : List β) : (nameAll pick l used).length = l.length := by
  induction l generalizing used with
  | nil => rfl
  | cons x rest ih => rw [nameAll, length_cons, length_cons, ih]

/-- No name is given twice, and none that was used before. -/
theorem nameAll_nodup (free : ∀ x used, pick x used ∉ used) (l : List α) (used : List β) :
    (nameAll pick l used).Nodup ∧ ∀ n ∈ nameAll pick l used, n ∉ used := by
  induction l generalizing used with
  | nil => exact ⟨.nil, nofun⟩
  | cons x rest ih =>
    obtain ⟨nodup, apart⟩ := ih (pick x used :: used)
    rw [nameAll, nodup_cons]
    refine ⟨⟨fun again => apart _ again mem_cons_self, nodup⟩, fun n inside => ?_⟩
    rcases mem_cons.mp inside with rfl | later
    · exact free x used
    · exact fun before => apart n later (mem_cons_of_mem _ before)

end Objects

section Tables

variable {α β : Type} [BEq α] [LawfulBEq α] {table : List (α × β)}

/-- What a map holds for a reference after all entries are written: the last one counts. -/
def get (table : List (α × β)) (ref : α) : Option β :=
  (table.reverse.find? fun entry => entry.1 == ref).map (·.2)

variable {ref : α}

theorem mem_of_get {name : β} (found : get table ref = some name) : (ref, name) ∈ table := by
  rw [get, Option.map_eq_some_iff] at found
  obtain ⟨⟨key, value⟩, seen, rfl⟩ := found
  have named := find?_some seen
  obtain rfl : key = ref := by simpa using named
  exact mem_reverse.mp (mem_of_find?_eq_some seen)

theorem get_isSome_iff : (get table ref).isSome ↔ ref ∈ table.map (·.1) := by
  rw [get, Option.isSome_map, find?_isSome]
  simp only [mem_reverse, beq_iff_eq, mem_map]

theorem get_eq_some_iff (distinct : (table.map (·.1)).Nodup) {name : β} :
    get table ref = some name ↔ (ref, name) ∈ table := by
  constructor
  · exact mem_of_get
  · intro inside
    obtain ⟨other, found⟩ := Option.isSome_iff_exists.mp
      (get_isSome_iff.mpr (mem_map_of_mem inside))
    have same := inj_on_of_nodup_map distinct (mem_of_get found) inside rfl
    rw [found]
    exact congrArg (fun entry => some entry.2) same

/-- A table without repetitions can be read both ways. -/
theorem get_swap_iff [BEq β] [LawfulBEq β] (refs : (table.map (·.1)).Nodup)
    (names : (table.map (·.2)).Nodup) {name : β} :
    get (table.map Prod.swap) name = some ref ↔ get table ref = some name := by
  have swapped : ((table.map Prod.swap).map (·.1)).Nodup := by
    rw [map_map]
    exact names
  rw [get_eq_some_iff refs, get_eq_some_iff swapped, mem_map]
  constructor
  · intro inside
    obtain ⟨⟨key, value⟩, there, same⟩ := inside
    cases same
    exact there
  · intro inside
    exact ⟨_, inside, rfl⟩

end Tables

end Sora.Lib.Naming
