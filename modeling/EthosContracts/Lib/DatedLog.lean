/-
**Logs whose entries take effect at a date.**

`inForce date now log best` — the entry in force at a time: the latest date that has come, the later
entry among equals; `best` is what an earlier part of the log has given.
-/

import Mathlib.Data.List.Basic

namespace EthosContracts.Lib

variable {α : Type} (date : α → Nat) (now : Nat)

def inForce : List α → Option α → Option α
  | [], best => best
  | entry :: rest, best =>
    if date entry ≤ now ∧ ∀ earlier ∈ best, date earlier ≤ date entry then
      inForce rest (some entry)
    else inForce rest best

theorem inForce_append (log more : List α) : ∀ best,
    inForce date now (log ++ more) best = inForce date now more (inForce date now log best) := by
  induction log with
  | nil => exact fun best => rfl
  | cons entry rest ih =>
    intro best
    simp only [List.cons_append, inForce]
    split
    · exact ih (some entry)
    · exact ih best

theorem inForce_of_later {log : List α} (later : ∀ entry ∈ log, now < date entry)
    (best : Option α) :
    inForce date now log best = best := by
  induction log with
  | nil => rfl
  | cons entry rest ih =>
    have notYet : ¬ date entry ≤ now := Nat.not_le.mpr (later entry List.mem_cons_self)
    rw [inForce, if_neg fun both => notYet both.1]
    exact ih (List.forall_mem_cons.mp later).2

theorem inForce_mem {log : List α} {entry : α} : ∀ {best : Option α},
    inForce date now log best = some entry → entry ∈ log ∨ best = some entry := by
  induction log with
  | nil => exact fun found => .inr found
  | cons head rest ih =>
    intro best found
    rw [inForce] at found
    split at found
    · rcases ih found with inRest | same
      · exact .inl (List.mem_cons_of_mem head inRest)
      · rw [← Option.some.inj same]
        exact .inl List.mem_cons_self
    · rcases ih found with inRest | same
      · exact .inl (List.mem_cons_of_mem head inRest)
      · exact .inr same

end EthosContracts.Lib
