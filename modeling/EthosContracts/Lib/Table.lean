/-
**Tables: keys with at most one entry each.**

An entry after a write is the written one, or an older one under another key (`update_eq_some_iff`);
in a list, whose keys are its positions, it is an older one or the last (`concat_eq_some_iff`).
-/

import Mathlib.Logic.Function.Basic

namespace EthosContracts.Lib

variable {κ α : Type} [DecidableEq κ] {table : κ → Option α} {k l : κ} {a b : α}

theorem update_eq_some_iff :
    Function.update table k (some a) l = some b ↔ l = k ∧ a = b ∨ l ≠ k ∧ table l = some b := by
  by_cases same : l = k
  · subst same
    simp
  · simp [same]

theorem stored_of_update {entry : Option α} (stored : Function.update table k entry l = some b) :
    table l = some b ∨ (l = k ∧ entry = some b) := by
  by_cases same : l = k
  · rw [same, Function.update_self] at stored
    exact .inr ⟨same, stored⟩
  · rw [Function.update_of_ne same] at stored
    exact .inl stored

theorem forall_entries_update {P : κ → α → Prop}
    (old : ∀ l b, l ≠ k → table l = some b → P l b) (new : P k a) :
    ∀ l b, Function.update table k (some a) l = some b → P l b := by
  intro l b stored
  rcases update_eq_some_iff.mp stored with ⟨rfl, rfl⟩ | ⟨other, kept⟩
  · exact new
  · exact old l b other kept

theorem concat_eq_some_iff {entries : List α} {i : Nat} : (entries ++ [a])[i]? = some b ↔
      i < entries.length ∧ entries[i]? = some b ∨ i = entries.length ∧ a = b := by
  rcases Nat.lt_trichotomy i entries.length with earlier | rfl | beyond
  · rw [List.getElem?_append_left earlier]
    simp [earlier, Nat.ne_of_lt earlier]
  · simp
  · have outside : (entries ++ [a]).length ≤ i := by
      rw [List.length_append]
      exact beyond
    rw [List.getElem?_eq_none outside]
    simp [Nat.lt_asymm beyond, Nat.ne_of_gt beyond]

end EthosContracts.Lib
