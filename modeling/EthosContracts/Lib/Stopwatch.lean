/-
**A stopwatch that can be paused for a while.**
-/

import Mathlib.Order.Interval.Finset.Nat

namespace EthosContracts.Lib

/-! ### Seconds outside the pauses -/

section Unpaused

open scoped Classical

/-- How many seconds of `[since, t)` lie outside the pauses, for any set of paused seconds. -/
noncomputable def unpaused (paused : Nat → Prop) (since t : Nat) : Nat :=
  ((Finset.Ico since t).filter fun x => ¬ paused x).card

variable {paused other : Nat → Prop} {since middle t : Nat}

theorem unpaused_congr (same : ∀ x, since ≤ x → x < t → (paused x ↔ other x)) :
    unpaused paused since t = unpaused other since t := by
  unfold unpaused
  congr 1
  refine Finset.filter_congr fun x member => ?_
  rw [Finset.mem_Ico] at member
  rw [same x member.1 member.2]

theorem unpaused_split (after : since ≤ middle) (before : middle ≤ t) :
    unpaused paused since t = unpaused paused since middle + unpaused paused middle t := by
  unfold unpaused
  rw [← Finset.Ico_union_Ico_eq_Ico after before, Finset.filter_union]
  refine Finset.card_union_of_disjoint ?_
  exact Finset.disjoint_filter_filter (Finset.Ico_disjoint_Ico_consecutive since middle t)

theorem unpaused_of_none (none : ∀ x, since ≤ x → x < t → ¬ paused x) :
    unpaused paused since t = t - since := by
  have all : ((Finset.Ico since t).filter fun x => ¬ paused x) = Finset.Ico since t := by
    refine Finset.filter_true_of_mem fun x member => ?_
    rw [Finset.mem_Ico] at member
    exact none x member.1 member.2
  unfold unpaused
  rw [all, Nat.card_Ico]

theorem unpaused_of_all
    (all : ∀ x, since ≤ x → x < t → paused x) : unpaused paused since t = 0 := by
  have none : ((Finset.Ico since t).filter fun x => ¬ paused x) = ∅ := by
    refine Finset.filter_false_of_mem fun x member => ?_
    rw [Finset.mem_Ico] at member
    exact not_not_intro (all x member.1 member.2)
  unfold unpaused
  rw [none, Finset.card_empty]

theorem unpaused_of_pause {stop : Nat} (started : since ≤ stop)
    (pause : ∀ x, since ≤ x → (paused x ↔ x < stop)) : unpaused paused since t = t - stop := by
  by_cases ended : stop ≤ t
  · have inside : unpaused paused since stop = 0 :=
      unpaused_of_all fun x after before => (pause x after).mpr before
    have outside : unpaused paused stop t = t - stop := unpaused_of_none fun x after _ asleep =>
        absurd ((pause x (started.trans after)).mp asleep) (Nat.not_lt_of_le after)
    rw [unpaused_split started ended, inside, outside, Nat.zero_add]
  · have inside : unpaused paused since t = 0 :=
      unpaused_of_all fun x after before => (pause x after).mpr (by omega)
    rw [inside]
    omega

end Unpaused

/-! ### The watch -/

/-- The mark from which a watch counts, and the start and length of its pause. -/
structure Stopwatch where
  mark : Nat
  pause : Option (Nat × Nat)

namespace Stopwatch

def elapsed (watch : Stopwatch) (t : Nat) : Nat :=
  match watch.pause with
  | none => t - watch.mark
  | some (start, length) => (start - watch.mark) + (t - (start + length))

/-- **The watch keeps the time** since `since`, as far as it is known at `now`. -/
def Keeps (watch : Stopwatch) (paused : Nat → Prop) (since now : Nat) : Prop :=
  match watch.pause with
  | none => since ≤ now ∧ watch.mark ≤ now ∧ unpaused paused since now = now - watch.mark ∧
      ∀ x, now ≤ x → ¬ paused x
  | some (start, length) => since ≤ start ∧ start ≤ now ∧ watch.mark ≤ start ∧
      unpaused paused since start = start - watch.mark ∧
      ∀ x, start ≤ x → (paused x ↔ x < start + length)

variable {paused other : Nat → Prop} {since now t mark start length : Nat}

theorem Keeps.unpaused_eq {watch : Stopwatch} (keeps : watch.Keeps paused since now)
    (later : now ≤ t) : unpaused paused since t = watch.elapsed t := by
  obtain ⟨mark, pause⟩ := watch
  cases pause with
  | none =>
    obtain ⟨started, marked, counted, clear⟩ := keeps
    have marked : mark ≤ now := marked
    have rest : unpaused paused now t = t - now := unpaused_of_none fun x after _ => clear x after
    rw [unpaused_split started later, counted, rest]
    show now - mark + (t - now) = t - mark
    omega
  | some pause =>
    obtain ⟨started, reached, marked, counted, pauses⟩ := keeps
    rw [unpaused_split started (reached.trans later), counted,
      unpaused_of_pause (Nat.le_add_right _ _) pauses]
    rfl

theorem Keeps.wait {watch : Stopwatch} (keeps : watch.Keeps paused since now) (later : now ≤ t) :
    watch.Keeps paused since t := by
  have shown := keeps.unpaused_eq later
  obtain ⟨mark, pause⟩ := watch
  cases pause with
  | none =>
    obtain ⟨started, marked, counted, clear⟩ := keeps
    exact ⟨started.trans later, marked.trans later, shown, fun x after => clear x (later.trans after)⟩
  | some pause =>
    obtain ⟨started, reached, rest⟩ := keeps
    exact ⟨started, reached.trans later, rest⟩

theorem Keeps.restart (keeps : (⟨mark, none⟩ : Stopwatch).Keeps paused since now)
    (later : now ≤ t) :
    (⟨t, none⟩ : Stopwatch).Keeps paused t t := by
  obtain ⟨-, -, -, clear⟩ := keeps
  refine ⟨le_rfl, le_rfl, ?_, fun x after => clear x (later.trans after)⟩
  exact unpaused_of_none fun x after before => absurd after (Nat.not_le_of_lt before)

theorem Keeps.restart_at_pause
    (keeps : (⟨mark, some (start, length)⟩ : Stopwatch).Keeps paused since now) :
    (⟨start, some (start, length)⟩ : Stopwatch).Keeps paused start start := by
  obtain ⟨-, -, -, -, pauses⟩ := keeps
  refine ⟨le_rfl, le_rfl, le_rfl, ?_, pauses⟩
  exact unpaused_of_none fun x after before => absurd after (Nat.not_le_of_lt before)

theorem Keeps.enter (keeps : (⟨mark, none⟩ : Stopwatch).Keeps paused since now) (later : now ≤ t)
    (pauses : ∀ x, other x ↔ paused x ∨ (t ≤ x ∧ x < t + length)) :
    (⟨mark, some (t, length)⟩ : Stopwatch).Keeps other since t := by
  have before : unpaused other since t = unpaused paused since t :=
    unpaused_congr fun x _ below => by
      rw [pauses]
      exact or_iff_left fun inside => absurd inside.1 (Nat.not_le_of_lt below)
  have shown : unpaused paused since t = t - mark := keeps.unpaused_eq later
  obtain ⟨started, marked, -, clear⟩ := keeps
  refine ⟨started.trans later, le_rfl, marked.trans later, before.trans shown, fun x after => ?_⟩
  rw [pauses]
  constructor
  · rintro (asleep | inside)
    · exact absurd asleep (clear x (later.trans after))
    · exact inside.2
  · intro below
    exact .inr ⟨after, below⟩

theorem Keeps.resume (keeps : (⟨mark, some (start, length)⟩ : Stopwatch).Keeps paused since now)
    (later : now ≤ t) (pauses : ∀ x, other x ↔ paused x ∧ x < t) :
    (⟨mark + min (t - start) length, none⟩ : Stopwatch).Keeps other since t := by
  have before : unpaused other since t = unpaused paused since t :=
    unpaused_congr fun x _ below => by
      rw [pauses]
      exact and_iff_left below
  have shown : unpaused paused since t = (start - mark) + (t - (start + length)) :=
    keeps.unpaused_eq later
  obtain ⟨started, reached, marked, -, -⟩ := keeps
  have marked : mark ≤ start := marked
  refine ⟨by omega, ?_, ?_, fun x after asleep => ?_⟩
  · show mark + min (t - start) length ≤ t
    omega
  · rw [before, shown]
    show start - mark + (t - (start + length)) = t - (mark + min (t - start) length)
    omega
  · exact absurd ((pauses x).mp asleep).2 (Nat.not_lt_of_le after)

end Stopwatch

end EthosContracts.Lib
