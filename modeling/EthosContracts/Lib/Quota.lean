/-
**Quotas per period, renewed lazily.**

Amounts are spent at times that never decrease. A counter holds what was spent in the present period
and when the period ends; the first spending after its end starts a new one.
-/

import EthosContracts.Lib.Run
import Mathlib.Algebra.Order.Ring.Int

namespace EthosContracts.Lib

open List

/-- What was spent from `first` on and before `last`. -/
def spent (spendings : List (Nat × Int)) (first last : Nat) : Int :=
  ((spendings.filter fun spending => first ≤ spending.1 ∧ spending.1 < last).map Prod.snd).sum

section Spent

variable {spendings : List (Nat × Int)} {now : Nat} {amount : Int}

theorem spent_cons (spending : Nat × Int) (rest : List (Nat × Int)) (first last : Nat) :
    spent (spending :: rest) first last =
      (if first ≤ spending.1 ∧ spending.1 < last then spending.2 else 0) + spent rest first last := by
  unfold spent
  rw [filter_cons]
  simp only [decide_eq_true_eq]
  split
  · rw [map_cons, sum_cons]
  · rw [Int.zero_add]

theorem spent_concat (first last : Nat) :
    spent (spendings ++ [(now, amount)]) first last =
      spent spendings first last + if first ≤ now ∧ now < last then amount else 0 := by
  induction spendings with
  | nil => exact (spent_cons _ _ _ _).trans (Int.add_comm _ _)
  | cons spending rest ih => rw [cons_append, spent_cons, spent_cons, ih, Int.add_assoc]

theorem spent_eq_zero {first last : Nat} (before : ∀ spending ∈ spendings, spending.1 < first) :
    spent spendings first last = 0 := by
  have none : spendings.filter (fun spending => first ≤ spending.1 ∧ spending.1 < last) = [] := by
    refine filter_eq_nil_iff.mpr fun spending member => ?_
    have earlier := before spending member
    simp only [decide_eq_true_eq]
    omega
  rw [spent, none]
  rfl

theorem spent_le_add (nonneg : ∀ spending ∈ spendings, 0 ≤ spending.2) (first last a b c d : Nat)
    (covered : ∀ time, first ≤ time → time < last → a ≤ time ∧ time < b ∨ c ≤ time ∧ time < d) :
    spent spendings first last ≤ spent spendings a b + spent spendings c d := by
  induction spendings with
  | nil => exact Int.le_refl 0
  | cons spending rest ih =>
    obtain ⟨here, later⟩ := forall_mem_cons.mp nonneg
    have among := covered spending.1
    have others := ih later
    rw [spent_cons, spent_cons, spent_cons]
    split <;> split <;> split <;> omega

end Spent

/-- The spendings so far, the ends of the periods so far, and the counter: what counts as spent in
the present period, and its end. -/
structure QuotaKept (period : Nat) (quota : Int) (spendings : List (Nat × Int)) (resets : List Nat)
    (used : Int) (resetAt : Nat) : Prop where
  nonneg : ∀ spending ∈ spendings, 0 ≤ spending.2
  before : ∀ spending ∈ spendings, spending.1 < resetAt
  started : ∀ now, (∀ spending ∈ spendings, spending.1 ≤ now) → resetAt ≤ now + period
  counted : spent spendings (resetAt - period) resetAt = used
  within : used ≤ quota
  /-- Just before the present period. -/
  recent : ∀ first, resetAt ≤ first + 2 * period → spent spendings first (resetAt - period) ≤ quota
  periods : ∀ reset ∈ resets, spent spendings (reset - period) reset ≤ quota ∧
    (reset = resetAt ∨ reset + period ≤ resetAt)
  window : ∀ first, spent spendings first (first + period) ≤ 2 * quota

namespace QuotaKept

variable {period resetAt now : Nat} {quota used amount : Int} {spendings : List (Nat × Int)}
  {resets : List Nat}

theorem empty (nonneg : 0 ≤ quota) : QuotaKept period quota [] [] 0 0 where
  nonneg := forall_mem_nil _
  before := forall_mem_nil _
  started _ _ := Nat.zero_le _
  counted := rfl
  within := nonneg
  recent _ _ := nonneg
  periods := forall_mem_nil _
  window _ := Int.mul_nonneg (by decide) nonneg

variable (kept : QuotaKept period quota spendings resets used resetAt)
include kept

theorem renew (lasts : 0 < period) (nonneg : 0 ≤ amount) (passed : resetAt ≤ now)
    (fits : amount ≤ quota) :
    QuotaKept period quota (spendings ++ [(now, amount)]) resets amount (now + period) := by
  have earlier : ∀ spending ∈ spendings, spending.1 < now := fun spending member =>
    Nat.lt_of_lt_of_le (kept.before spending member) passed
  -- what was spent from a period ago on was spent in the last one
  have lately : ∀ first last, now ≤ first + period → spent spendings first last ≤ quota := by
    intro first last reaches
    have split := spent_le_add kept.nonneg first last (resetAt - period) resetAt resetAt last
      (fun time _ _ => by omega)
    rw [spent_eq_zero kept.before, kept.counted] at split
    have within := kept.within
    omega
  refine ⟨forall_mem_concat.mpr ⟨kept.nonneg, nonneg⟩, ?_, ?_, ?_, fits, ?_, ?_, ?_⟩
  · refine forall_mem_concat.mpr ⟨fun spending member => ?_, Nat.lt_add_of_pos_right lasts⟩
    exact Nat.lt_add_right period (earlier spending member)
  · intro later ordered
    exact Nat.add_le_add_right (forall_mem_concat.mp ordered).2 period
  · rw [Nat.add_sub_cancel, spent_concat, spent_eq_zero earlier, if_pos ⟨Nat.le_refl now, by omega⟩,
      Int.zero_add]
  · intro first reaches
    rw [Nat.add_sub_cancel, spent_concat, if_neg (by omega), Int.add_zero]
    exact lately first now (by omega)
  · intro reset member
    obtain ⟨bounded, order⟩ := kept.periods reset member
    rw [spent_concat, if_neg (by omega), Int.add_zero]
    exact ⟨bounded, .inr (by omega)⟩
  · intro first
    have before := kept.window first
    rw [spent_concat]
    split
    · have recently := lately first (first + period) (by omega)
      omega
    · omega

theorem spend (nonneg : 0 ≤ amount) (ordered : ∀ spending ∈ spendings, spending.1 ≤ now)
    (running : now < resetAt) (fits : used + amount ≤ quota) :
    QuotaKept period quota (spendings ++ [(now, amount)]) resets (used + amount) resetAt := by
  have started := kept.started now ordered
  have counted : spent (spendings ++ [(now, amount)]) (resetAt - period) resetAt = used + amount := by
    rw [spent_concat, kept.counted, if_pos (by omega)]
  have recent : ∀ first, resetAt ≤ first + 2 * period →
      spent (spendings ++ [(now, amount)]) first (resetAt - period) ≤ quota := by
    intro first reaches
    rw [spent_concat, if_neg (by omega), Int.add_zero]
    exact kept.recent first reaches
  have all : ∀ spending ∈ spendings ++ [(now, amount)], 0 ≤ spending.2 :=
    forall_mem_concat.mpr ⟨kept.nonneg, nonneg⟩
  have before : ∀ spending ∈ spendings ++ [(now, amount)], spending.1 < resetAt :=
    forall_mem_concat.mpr ⟨kept.before, running⟩
  refine ⟨all, before, ?_, counted, fits, recent, ?_, ?_⟩
  · exact fun later bounds => kept.started later (forall_mem_concat.mp bounds).1
  · intro reset member
    obtain ⟨bounded, same | order⟩ := kept.periods reset member
    · rw [same]
      exact ⟨counted.trans_le fits, .inl rfl⟩
    · rw [spent_concat, if_neg (by omega), Int.add_zero]
      exact ⟨bounded, .inr order⟩
  · intro first
    by_cases inside : first ≤ now ∧ now < first + period
    · have lately := recent first (by omega)
      have split := spent_le_add all first (first + period) first (resetAt - period)
        (resetAt - period) (first + period) (by omega)
      have present := spent_le_add all (resetAt - period) (first + period) (resetAt - period) resetAt
        resetAt (first + period) (by omega)
      rw [spent_eq_zero before, counted] at present
      omega
    · rw [spent_concat, if_neg inside, Int.add_zero]
      exact kept.window first

end QuotaKept

def charged (period now : Nat) (amount : Int) : Option (Int × Nat) → Int × Nat
  | none => (amount, now + period)
  | some (used, resetAt) =>
    if resetAt ≤ now then (amount, now + period) else (used + amount, resetAt)

/-- Nothing has been spent yet, or the quota is kept. -/
inductive Metered (period : Nat) (quota : Int) :
    List (Nat × Int) → List Nat → Option (Int × Nat) → Prop
  | unused : Metered period quota [] [] none
  | used {spendings resets counter}
      (kept : QuotaKept period quota spendings resets counter.1 counter.2) :
      Metered period quota spendings resets (some counter)

namespace Metered

variable {period now : Nat} {quota amount : Int} {spendings : List (Nat × Int)} {resets : List Nat}
  {counter : Option (Int × Nat)}

variable (metered : Metered period quota spendings resets counter)
include metered

theorem charge (lasts : 0 < period) (nonneg : 0 ≤ amount)
    (ordered : ∀ spending ∈ spendings, spending.1 ≤ now)
    (fits : (charged period now amount counter).1 ≤ quota) :
    Metered period quota (spendings ++ [(now, amount)]) resets
      (some (charged period now amount counter)) := by
  cases metered with
  | unused => exact .used ((QuotaKept.empty (nonneg.trans fits)).renew lasts nonneg
      (Nat.zero_le now) fits)
  | @used _ _ counter kept =>
    by_cases passed : counter.2 ≤ now
    · have next : charged period now amount (some counter) = (amount, now + period) := if_pos passed
      rw [next] at fits ⊢
      exact .used (kept.renew lasts nonneg passed fits)
    · have next : charged period now amount (some counter) = (counter.1 + amount, counter.2) :=
        if_neg passed
      rw [next] at fits ⊢
      exact .used (kept.spend nonneg ordered (Nat.lt_of_not_le passed) fits)

theorem record :
    Metered period quota spendings (resets ++ (counter.map Prod.snd).toList) counter := by
  cases metered with
  | unused => exact .unused
  | @used _ _ counter kept =>
    refine .used { kept with periods := fun reset member => ?_ }
    rcases mem_append.mp member with earlier | last
    · exact kept.periods reset earlier
    · rw [mem_singleton.mp last]
      exact ⟨kept.counted.trans_le kept.within, .inl rfl⟩

theorem periods : ∀ reset ∈ resets, spent spendings (reset - period) reset ≤ quota := by
  cases metered with
  | unused => exact forall_mem_nil _
  | used kept => exact fun reset member => (kept.periods reset member).1

theorem window (first : Nat) : spent spendings first (first + period) ≤ 2 * max quota 0 := by
  cases metered with
  | unused => exact Int.mul_nonneg (by decide) (Int.le_max_right ..)
  | used kept =>
    have bounded := kept.window first
    omega

end Metered

end EthosContracts.Lib
