/-
**Tallies: families that are zero almost everywhere and add up to a recorded total.**
-/

import Mathlib.Algebra.BigOperators.Group.Finset.Piecewise
import Mathlib.Algebra.BigOperators.Ring.Finset
import Mathlib.Algebra.Order.BigOperators.Group.Finset
import Mathlib.Algebra.Order.Group.Defs
import Mathlib.Tactic.Abel

namespace EthosContracts.Lib

variable {ι M : Type}

/-- `f` vanishes outside a finite set, and `total` is its sum. -/
def Tally [AddCommMonoid M] (f : ι → M) (total : M) : Prop :=
  ∃ held : Finset ι, (∀ i, i ∉ held → f i = 0) ∧ ∑ i ∈ held, f i = total

theorem tally_zero [AddCommMonoid M] : Tally (fun _ : ι => (0 : M)) 0 :=
  ⟨∅, fun _ _ => rfl, Finset.sum_empty⟩

variable {f : ι → M} {total : M}

/-- Where one value changes, the rest of the total stays. -/
theorem Tally.replace [DecidableEq ι] [AddCommMonoid M] (tally : Tally f total) (i : ι) (new : M) :
    ∃ rest, total = rest + f i ∧ Tally (Function.update f i new) (rest + new) := by
  obtain ⟨held, outside, rfl⟩ := tally
  have member : i ∈ insert i held := Finset.mem_insert_self i held
  have whole : ∑ j ∈ insert i held, f j = ∑ j ∈ held, f j :=
    Finset.sum_insert_of_eq_zero_if_notMem fun absent => outside i absent
  refine ⟨∑ j ∈ insert i held \ {i}, f j, ?_, insert i held, ?_, ?_⟩
  · rw [← whole, ← Finset.sum_sdiff (Finset.singleton_subset_iff.mpr member), Finset.sum_singleton]
  · intro j absent
    rw [Finset.mem_insert, not_or] at absent
    rw [Function.update_of_ne absent.1]
    exact outside j absent.2
  · rw [Finset.sum_update_of_mem member, add_comm]

/-- Where one value changes, the total changes by the difference. -/
theorem Tally.set [DecidableEq ι] [AddCommGroup M] (tally : Tally f total)
    (i : ι) (new : M) : Tally (Function.update f i new) (total + (new - f i)) := by
  obtain ⟨rest, rfl, changed⟩ := tally.replace i new
  have total : rest + f i + (new - f i) = rest + new := by abel
  rw [total]
  exact changed

theorem Tally.add [AddCommMonoid M] {g : ι → M} {other : M} (tally : Tally f total)
    (second : Tally g other) : Tally (fun i => f i + g i) (total + other) := by
  classical
  obtain ⟨held, outside, rfl⟩ := tally
  obtain ⟨also, apart, rfl⟩ := second
  refine ⟨held ∪ also, fun i absent => ?_, ?_⟩
  · rw [Finset.mem_union, not_or] at absent
    show f i + g i = 0
    rw [outside i absent.1, apart i absent.2, add_zero]
  · rw [Finset.sum_add_distrib, Finset.sum_subset Finset.subset_union_left fun i _ => outside i,
      Finset.sum_subset Finset.subset_union_right fun i _ => apart i]

theorem Tally.mul_const [NonUnitalNonAssocSemiring M]
    (tally : Tally f total) (c : M) : Tally (fun i => f i * c) (total * c) := by
  obtain ⟨held, outside, rfl⟩ := tally
  refine ⟨held, fun i absent => ?_, (Finset.sum_mul held f c).symm⟩
  show f i * c = 0
  rw [outside i absent, zero_mul]

section Ordered

variable [AddCommMonoid M] [PartialOrder M] [IsOrderedAddMonoid M] {f : ι → M} {total : M}

theorem Tally.nonneg (tally : Tally f total) (values : ∀ i, 0 ≤ f i) : 0 ≤ total := by
  obtain ⟨held, -, rfl⟩ := tally
  exact Finset.sum_nonneg fun i _ => values i

theorem Tally.le_total (tally : Tally f total) (values : ∀ i, 0 ≤ f i) (i : ι) : f i ≤ total := by
  obtain ⟨held, outside, rfl⟩ := tally
  by_cases member : i ∈ held
  · exact Finset.single_le_sum (fun j _ => values j) member
  · rw [outside i member]
    exact Finset.sum_nonneg fun j _ => values j

end Ordered

theorem Tally.rounded {f g : ι → Nat} {total scale : Nat} (tally : Tally g total)
    (pos : 0 < scale) (below : ∀ i, f i * scale ≤ g i) :
    ∃ sum, Tally f sum ∧ sum * scale ≤ total := by
  obtain ⟨held, outside, rfl⟩ := tally
  refine ⟨∑ i ∈ held, f i, ⟨held, fun i absent => ?_, rfl⟩, ?_⟩
  · have none := below i
    rw [outside i absent, Nat.le_zero, mul_eq_zero] at none
    exact none.resolve_right pos.ne'
  · rw [Finset.sum_mul]
    exact Finset.sum_le_sum fun i _ => below i

end EthosContracts.Lib
