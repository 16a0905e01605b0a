/-
**Slices of a list**, as loops over positions read them.
-/

import Mathlib.Data.List.Basic

namespace EthosContracts.Lib

open List

variable {α : Type}

theorem filterMap_getElem?_range' (items : List α) (first count : Nat) :
    (List.range' first count).filterMap (fun i => items[i]?) = (items.drop first).take count := by
  induction count generalizing first with
  | zero => rw [take_zero]; rfl
  | succ count ih =>
    rw [List.range'_succ, filterMap_cons, ih]
    cases here : items[first]? with
    | none =>
      have outside := List.getElem?_eq_none_iff.mp here
      rw [drop_eq_nil_of_le outside, drop_eq_nil_of_le (by omega)]
      simp
    | some item =>
      obtain ⟨inside, rfl⟩ := List.getElem?_eq_some_iff.mp here
      rw [drop_eq_getElem_cons inside, take_succ_cons]

theorem flatMap_slices (items : List α) (size count : Nat) :
    (List.range count).flatMap (fun page => (items.drop (page * size)).take size) =
      items.take (count * size) := by
  induction count with
  | zero => rw [Nat.zero_mul, take_zero]; rfl
  | succ count ih =>
    rw [range_succ, flatMap_append, ih, Nat.succ_mul, take_add]
    simp

end EthosContracts.Lib
