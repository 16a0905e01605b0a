/-
**Indexes kept by hand.**

Items have at most one key each, `key : ι → Option κ`; two derived structures answer the reverse
question and have to be kept in step with every change of a key: `Mirrors` and `Marks`.
-/

import Mathlib.Data.List.Nodup
import Mathlib.Logic.Function.Basic

namespace EthosContracts.Lib

open Function

variable {κ ι : Type} [DecidableEq κ]

/-! ### Lists of items -/

namespace Index

/-- List an item under a key. -/
def add (index : κ → List ι) (k : κ) (i : ι) : κ → List ι :=
  update index k (index k ++ [i])

/-- Strike an item from the list of a key. -/
def remove [DecidableEq ι] (index : κ → List ι) (k : κ) (i : ι) : κ → List ι :=
  update index k ((index k).filter (· ≠ i))

/-- Move an item from one key to another, if they differ. -/
def move [DecidableEq ι] (index : κ → List ι) (old new : κ) (i : ι) : κ → List ι :=
  if old ≠ new then add (remove index old i) new i else index

variable {index : κ → List ι} {k l : κ} {i j : ι}

theorem mem_add : j ∈ add index k i l ↔ j ∈ index l ∨ (l = k ∧ j = i) := by
  unfold add
  by_cases same : l = k
  · subst same
    rw [update_self, List.mem_append, List.mem_singleton]
    simp only [true_and]
  · rw [update_of_ne same]
    simp only [same, false_and, or_false]

theorem mem_remove [DecidableEq ι] : j ∈ remove index k i l ↔ j ∈ index l ∧ ¬ (l = k ∧ j = i) := by
  unfold remove
  by_cases same : l = k
  · subst same
    rw [update_self, List.mem_filter]
    simp only [ne_eq, decide_eq_true_eq, true_and]
  · rw [update_of_ne same]
    simp only [same, false_and, not_false_eq_true, and_true]

theorem nodup_add (nodup : ∀ l, (index l).Nodup)
    (absent : i ∉ index k) : ∀ l, (add index k i l).Nodup := by
  intro l
  unfold add
  by_cases same : l = k
  · subst same
    rw [update_self]
    exact List.Nodup.append (nodup l) (List.nodup_singleton i) (List.disjoint_singleton.mpr absent)
  · rw [update_of_ne same]
    exact nodup l

theorem nodup_remove [DecidableEq ι] (nodup : ∀ l, (index l).Nodup) :
    ∀ l, (remove index k i l).Nodup := by
  intro l
  unfold remove
  by_cases same : l = k
  · subst same
    rw [update_self]
    exact (nodup l).filter _
  · rw [update_of_ne same]
    exact nodup l

end Index

/-- The index lists, for every key, exactly the items that have it, each once. -/
structure Mirrors (index : κ → List ι) (key : ι → Option κ) : Prop where
  nodup : ∀ k, (index k).Nodup
  mem_iff : ∀ k i, i ∈ index k ↔ key i = some k

namespace Mirrors

variable [DecidableEq ι] {index : κ → List ι} {key : ι → Option κ} {k : κ} {i : ι}

variable (mirrors : Mirrors index key)
include mirrors

omit [DecidableEq κ] [DecidableEq ι] in
theorem congr {other : ι → Option κ} (same : ∀ i, other i = key i) : Mirrors index other := by
  rwa [show other = key from funext same]

/-- A new item is listed under its key. -/
theorem add (absent : key i = none) : Mirrors (Index.add index k i) (update key i (some k)) where
  nodup := by
    refine Index.nodup_add mirrors.nodup fun member => ?_
    rw [mirrors.mem_iff, absent] at member
    cases member
  mem_iff l j := by
    rw [Index.mem_add, mirrors.mem_iff]
    by_cases same : j = i
    · subst same
      rw [absent, update_self]
      simp [eq_comm]
    · rw [update_of_ne same]
      simp only [same, and_false, or_false]

/-- An item that loses its key is struck from the list of that key. -/
theorem remove (present : ∀ l, key i = some l → l = k) :
    Mirrors (Index.remove index k i) (update key i none) where
  nodup := Index.nodup_remove mirrors.nodup
  mem_iff l j := by
    rw [Index.mem_remove, mirrors.mem_iff]
    by_cases same : j = i
    · subst same
      rw [update_self]
      constructor
      · intro member
        exact absurd ⟨present l member.1, rfl⟩ member.2
      · intro empty
        cases empty
    · rw [update_of_ne same]
      simp only [same, and_false, not_false_eq_true, and_true]

/-- An item that changes its key is moved. -/
theorem move {old new : κ} (present : key i = some old) :
    Mirrors (Index.move index old new i) (update key i (some new)) := by
  unfold Index.move
  by_cases ne : old ≠ new
  · rw [if_pos ne]
    have removed := mirrors.remove (k := old) (i := i) fun l has =>
      (Option.mem_unique present has).symm
    have added := removed.add (k := new) (update_self i none key)
    rwa [update_idem] at added
  · rw [if_neg ne]
    refine mirrors.congr fun j => ?_
    by_cases same : j = i
    · rw [same, update_self, present, not_not.mp ne]
    · rw [update_of_ne same]

end Mirrors

/-! ### One item for a key -/

/-- The marker names, for every key, the item that has it; there is at most one. -/
def Marks (marker : κ → Option ι) (key : ι → Option κ) : Prop :=
  ∀ k i, marker k = some i ↔ key i = some k

namespace Marks

variable [DecidableEq ι] {marker : κ → Option ι} {key : ι → Option κ} {k : κ} {i : ι}

variable (marks : Marks marker key)
include marks

omit [DecidableEq κ] [DecidableEq ι] in
/-- A key is marked if some item has it. -/
theorem isSome_iff : (marker k).isSome = true ↔ ∃ i, key i = some k := by
  rw [Option.isSome_iff_exists]
  exact exists_congr fun i => marks k i

/-- A new item marks its key, if nothing does. -/
theorem mark (fresh : marker k = none) (absent : key i = none) :
    Marks (update marker k (some i)) (update key i (some k)) := by
  intro l j
  by_cases sameKey : l = k
  · subst sameKey
    rw [update_self]
    by_cases same : j = i
    · subst same
      simp only [update_self]
    · rw [update_of_ne same, ← marks, fresh]
      simp only [Option.some.injEq, Ne.symm same, reduceCtorEq]
  · rw [update_of_ne sameKey, marks]
    by_cases same : j = i
    · subst same
      rw [update_self, absent]
      simp only [Option.some.injEq, Ne.symm sameKey, reduceCtorEq]
    · rw [update_of_ne same]

/-- An item that loses its key leaves the key unmarked. -/
theorem clear (present : key i = some k) : Marks (update marker k none) (update key i none) := by
  intro l j
  by_cases sameKey : l = k
  · subst sameKey
    rw [update_self]
    by_cases same : j = i
    · subst same
      simp only [update_self, reduceCtorEq]
    · rw [update_of_ne same, ← marks, (marks l i).mpr present]
      simp only [Option.some.injEq, Ne.symm same, reduceCtorEq]
  · rw [update_of_ne sameKey, marks]
    by_cases same : j = i
    · subst same
      rw [update_self, present]
      simp only [Option.some.injEq, Ne.symm sameKey, reduceCtorEq]
    · rw [update_of_ne same]

end Marks

end EthosContracts.Lib
