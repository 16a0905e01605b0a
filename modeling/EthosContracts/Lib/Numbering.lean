/-
**Numbering: items counted key by key.**
-/

import Mathlib.Data.List.Induction
import Mathlib.Data.List.Perm.Basic
import Mathlib.Data.List.Sort
import Mathlib.Tactic.Common

namespace EthosContracts.Lib

open List

variable {α β κ : Type} [DecidableEq κ] (key : α → κ)

def ofKey (k : κ) (items : List α) : List α := items.filter (key · = k)

/-- Every item with its number among those of its key, from one on. -/
def numbered (items : List α) : List (α × Nat) :=
  items.foldl (fun done item =>
    done ++ [(item, (ofKey key (key item) (done.map Prod.fst)).length + 1)]) []

variable {key} {items : List α} {item : α} {k : κ}

theorem ofKey_append (others : List α) :
    ofKey key k (items ++ others) = ofKey key k items ++ ofKey key k others :=
  filter_append _ _

theorem ofKey_concat_self : ofKey key (key item) (items ++ [item]) =
    ofKey key (key item) items ++ [item] := by
  rw [ofKey_append]
  simp [ofKey]

theorem ofKey_concat_other (other : key item ≠ k) :
    ofKey key k (items ++ [item]) = ofKey key k items := by
  rw [ofKey_append]
  simp [ofKey, other]

theorem ofKey_eq_nil_iff : ofKey key k items = [] ↔ ∀ item ∈ items, key item ≠ k := by
  simp [ofKey]

/-! ### The numbers -/

theorem numbered_concat_done : numbered key (items ++ [item]) = numbered key items ++
    [(item, (ofKey key (key item) ((numbered key items).map Prod.fst)).length + 1)] := by
  rw [numbered, foldl_append]
  rfl

theorem numbered_items : (numbered key items).map Prod.fst = items := by
  induction items using List.reverseRecOn with
  | nil => rfl
  | append_singleton items item ih =>
    rw [numbered_concat_done, map_append, ih]
    rfl

theorem numbered_concat : numbered key (items ++ [item]) =
    numbered key items ++ [(item, (ofKey key (key item) items).length + 1)] := by
  rw [numbered_concat_done, numbered_items]

theorem numbered_ofKey (k : κ) :
    (numbered key items).filter (fun entry => key entry.1 = k) = (ofKey key k items).zipIdx 1 := by
  induction items using List.reverseRecOn with
  | nil => rfl
  | append_singleton items item ih =>
    rw [numbered_concat, filter_append, ih]
    by_cases same : key item = k
    · subst same
      rw [ofKey_concat_self, zipIdx_append]
      simp [Nat.add_comm]
    · rw [ofKey_concat_other same]
      simp [same]

theorem exists_numbered_iff {n : Nat} :
    (∃ entry ∈ numbered key items, key entry.1 = k ∧ entry.2 = n) ↔
      1 ≤ n ∧ n ≤ (ofKey key k items).length := by
  have listed : (∃ entry ∈ numbered key items, key entry.1 = k ∧ entry.2 = n) ↔
      n ∈ ((ofKey key k items).zipIdx 1).map Prod.snd := by
    rw [← numbered_ofKey, mem_map]
    simp only [mem_filter, decide_eq_true_eq, and_assoc]
  rw [listed, zipIdx_map_snd, mem_range'_1]
  omega

variable (key) in
theorem eq_numbered_iff (value : Nat → β) {answers : List (α × β)}
    (asked : answers.map Prod.fst = items) :
    answers = (numbered key items).map (fun entry => (entry.1, value entry.2)) ↔
      ∀ k, (answers.filter (fun answer => key answer.1 = k)).map Prod.snd =
        (List.range' 1 (ofKey key k items).length).map value := by
  constructor
  · intro same k
    rw [same, filter_map, map_map]
    have chosen : (numbered key items).filter ((fun answer : α × β => decide (key answer.1 = k)) ∘
        fun entry => (entry.1, value entry.2)) = (ofKey key k items).zipIdx 1 := numbered_ofKey k
    rw [chosen, ← zipIdx_map_snd 1 (ofKey key k items), map_map]
    rfl
  · intro each
    induction answers using List.reverseRecOn generalizing items with
    | nil =>
      subst asked
      rfl
    | append_singleton answers answer ih =>
      subst asked
      rw [map_append, map_singleton] at each ⊢
      -- the last answer is the last of its key, and the others are those of the shorter list
      have last := each (key answer.1)
      rw [ofKey_concat_self, length_append, length_singleton, List.range'_1_concat,
        map_append, filter_append, map_append] at last
      have here : [answer].filter (fun other => key other.1 = key answer.1) = [answer] := by simp
      rw [here] at last
      obtain ⟨earlier, next⟩ := append_inj' last rfl
      have before := ih rfl fun k => by
        by_cases same : key answer.1 = k
        · subst same
          exact earlier
        · have other := each k
          rw [ofKey_concat_other same, filter_append] at other
          simpa [same] using other
      rw [numbered_concat, map_append, ← before]
      have number : answer.2 = value (1 + (ofKey key (key answer.1) (answers.map Prod.fst)).length) :=
        singleton_inj.mp next
      rw [Nat.add_comm, map_singleton, ← number]

/-! ### Numbered items in a table -/

section ReadBack

variable {ε ρ : Type} {read : ρ → Except ε α} {number : α → Nat}

theorem mapM_eq_ok_iff {rows : List ρ} {out : List α} :
    rows.mapM read = .ok out ↔ List.Forall₂ (fun row item => read row = .ok item) rows out := by
  induction rows generalizing out with
  | nil =>
    rw [mapM_nil, forall₂_nil_left_iff]
    exact ⟨fun same => (Except.ok.inj same).symm, fun same => same ▸ rfl⟩
  | cons row rows ih =>
    rw [mapM_cons, forall₂_cons_left_iff]
    simp only [← ih]
    cases read row with
    | error e => simp [bind, Except.bind]
    | ok item =>
      cases rows.mapM read with
      | error e => simp [bind, Except.bind]
      | ok rest => simp [bind, Except.bind, pure, Except.pure, eq_comm]

theorem sort_eq_of_perm {items out : List α}
    (increasing : items.Pairwise fun a b => number a < number b) (same : out.Perm items) :
    out.insertionSort (fun a b => number a ≤ number b) = items := by
  have : Std.Total fun a b : α => number a ≤ number b := ⟨fun a b => Nat.le_total _ _⟩
  have : IsTrans α fun a b : α => number a ≤ number b := ⟨fun a b c => Nat.le_trans⟩
  have sorted := pairwise_insertionSort (fun a b : α => number a ≤ number b) out
  have perm := (perm_insertionSort (fun a b : α => number a ≤ number b) out).trans same
  have unordered : items.Pairwise fun a b => number a ≤ number b := increasing.imp Nat.le_of_lt
  refine List.Perm.eq_of_pairwise ?_ sorted unordered perm
  have ne : (items.map number).Nodup := (pairwise_map.mpr increasing).imp Nat.ne_of_lt
  intro a b left right ab ba
  exact inj_on_of_nodup_map ne (perm.mem_iff.mp left) right (Nat.le_antisymm ab ba)

theorem readBack_iff {write : α → ρ} {items : List α} {rows : List ρ}
    (increasing : items.Pairwise fun a b => number a < number b)
    (stored : rows.Perm (items.map write))
    (numberKept : ∀ item ∈ items, ∀ out, read (write item) = .ok out → number out = number item) :
    (rows.mapM read).map (·.insertionSort fun a b => number a ≤ number b) = .ok items ↔
      ∀ item ∈ items, read (write item) = .ok item := by
  constructor
  · intro back
    cases readAll : rows.mapM read with
    | error e => simp [readAll, Except.map] at back
    | ok out =>
      rw [readAll] at back
      have sorted := Except.ok.inj back
      obtain ⟨inOrder, each, shuffled⟩ :=
        perm_comp_forall₂ stored.symm (mapM_eq_ok_iff.mp readAll)
      rw [forall₂_map_left_iff] at each
      have whole : inOrder.Perm items := by
        rw [← sorted]
        exact shuffled.trans (perm_insertionSort _ _).symm
      -- what was read, row by row, has the numbers of the items, so it is in their order
      have numbers : items.map number = inOrder.map number := by
        rw [← forall₂_eq_eq_eq, forall₂_map_left_iff, forall₂_map_right_iff]
        exact ((forall₂_and_left _ _).mpr ⟨numberKept, each⟩).imp
          fun item out read => (read.1 out read.2).symm
      have ordered : inOrder.Pairwise fun a b => number a < number b := by
        rw [← pairwise_map, ← numbers, pairwise_map]
        exact increasing
      have same : inOrder = items :=
        (sort_eq_of_perm ordered (List.Perm.refl _)).symm.trans (sort_eq_of_perm increasing whole)
      rw [same, forall₂_same] at each
      exact each
  · intro each
    have read : List.Forall₂ (fun row item => read row = .ok item) (items.map write) items := by
      rw [forall₂_map_left_iff, forall₂_same]
      exact each
    obtain ⟨out, readAll, shuffled⟩ := perm_comp_forall₂ stored read
    rw [mapM_eq_ok_iff.mpr readAll]
    exact congrArg Except.ok (sort_eq_of_perm increasing shuffled)

end ReadBack
end EthosContracts.Lib
