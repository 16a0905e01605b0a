/-
**Shares in a common index: what is owed to many participants by one number.**

Gains are spread over weighted participants by raising an index; a participant is credited, rounded
down, when they act.
-/

import EthosContracts.Lib.Tally

namespace EthosContracts.Lib

open Function

/-- The units of one holder, and the index they are settled up to. -/
structure Share where
  units : Nat
  weight : Nat
  snapshot : Nat
deriving DecidableEq

namespace Share

variable (scale index : Nat) (share : Share)

/-- What is owed, in units of one over the scale. -/
def owed : Nat := share.units * scale + share.weight * (index - share.snapshot)

/-- What is owed, in whole units. -/
def credit : Nat := share.units + share.weight * (index - share.snapshot) / scale

theorem credit_mul_le : share.credit scale index * scale ≤ share.owed scale index := by
  rw [credit, owed, Nat.add_mul]
  exact Nat.add_le_add_left (Nat.div_mul_le_self _ _) _

theorem owed_at (units weight : Nat) : (Share.mk units weight index).owed scale index =
    units * scale := by
  rw [owed, Nat.sub_self, Nat.mul_zero, Nat.add_zero]

theorem owed_advance {share : Share} (behind : share.snapshot ≤ index) (rise : Nat) :
    share.owed scale (index + rise) = share.owed scale index + share.weight * rise := by
  have apart : index + rise - share.snapshot = index - share.snapshot + rise := by omega
  rw [owed, owed, apart, Nat.mul_add, Nat.add_assoc]

end Share

variable {ι : Type}

/-- The weights add up, and what is owed at the index is covered by the units. -/
structure ShareBook (scale : Nat) (shares : ι → Share) (index weight units : Nat) : Prop where
  weights : Tally (fun i => (shares i).weight) weight
  behind : ∀ i, (shares i).snapshot ≤ index
  covered : ∃ owed, Tally (fun i => (shares i).owed scale index) owed ∧ owed ≤ units * scale

namespace ShareBook

variable {scale index weight units : Nat} {shares : ι → Share}

section

variable (book : ShareBook scale shares index weight units)
include book

theorem advance {rise added : Nat}
    (recorded : weight * rise ≤ added * scale) :
    ShareBook scale shares (index + rise) weight (units + added) := by
  obtain ⟨owed, tally, covered⟩ := book.covered
  refine ⟨book.weights, fun i => (book.behind i).trans (Nat.le_add_right _ _),
    owed + weight * rise, ?_, ?_⟩
  · simp only [fun i => Share.owed_advance scale index (book.behind i) rise]
    exact tally.add (book.weights.mul_const rise)
  · rw [Nat.add_mul]
    exact Nat.add_le_add covered recorded

theorem replace [DecidableEq ι] (i : ι)
    {new : Share} {weight' units' : Nat} (behind : new.snapshot ≤ index)
    (weighed : weight' + (shares i).weight = weight + new.weight)
    (owes : new.owed scale index + units * scale ≤ (shares i).owed scale index + units' * scale) :
    ShareBook scale (update shares i new) index weight' units' := by
  have family {β : Type} (part : Share → β) : (fun j => part (update shares i new j)) =
      update (fun j => part (shares j)) i (part new) := by
    funext j
    by_cases same : j = i
    · subst same
      simp
    · simp [same]
  obtain ⟨owed, tally, covered⟩ := book.covered
  obtain ⟨rest, rfl, changed⟩ := tally.replace i (new.owed scale index)
  obtain ⟨others, whole, moved⟩ := book.weights.replace i new.weight
  refine ⟨?_, fun j => ?_, rest + new.owed scale index, ?_, by omega⟩
  · rw [family Share.weight]
    have total : weight' = others + new.weight := by omega
    rw [total]
    exact moved
  · by_cases same : j = i
    · subst same
      rw [update_self]
      exact behind
    · rw [update_of_ne same]
      exact book.behind j
  · rw [family (Share.owed scale index)]
    exact changed

theorem credits (pos : 0 < scale) :
    ∃ sum, Tally (fun i => (shares i).credit scale index) sum ∧ sum ≤ units := by
  obtain ⟨owed, tally, covered⟩ := book.covered
  obtain ⟨sum, credited, below⟩ := tally.rounded pos fun i =>
    Share.credit_mul_le scale index (shares i)
  exact ⟨sum, credited, Nat.le_of_mul_le_mul_right (below.trans covered) pos⟩

theorem credit_le (pos : 0 < scale) (i : ι) : (shares i).credit scale index ≤ units := by
  obtain ⟨sum, credited, covered⟩ := book.credits pos
  exact (credited.le_total (fun _ => Nat.zero_le _) i).trans covered

end

end ShareBook

end EthosContracts.Lib
