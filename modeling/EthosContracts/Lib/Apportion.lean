/-
**Splitting an amount by weight: rounded down, the last share taking what is left.**
-/

import Mathlib.Algebra.Order.BigOperators.Group.List
import Mathlib.Algebra.Order.Ring.Int
import Mathlib.Tactic.Linarith

namespace EthosContracts.Lib

open List

variable {ι κ : Type}

/-! ### Shares -/

def floorShare (amount denominator : Int) (weight : Nat) : Int := amount * weight / denominator

/-- The items with their shares of what is `left` of the amount: the rounded ones, and the rest for
the last item. -/
def apportion (weight : ι → Nat) (amount denominator : Int) : List ι → Int → List (ι × Int)
  | [], _ => []
  | [last], left => [(last, left)]
  | item :: next :: rest, left =>
    (item, floorShare amount denominator (weight item)) ::
      apportion weight amount denominator (next :: rest)
        (left - floorShare amount denominator (weight item))

section Shares

variable {weight : ι → Nat} {amount denominator : Int}

theorem tdiv_eq_floorShare (nonneg : 0 ≤ amount) (weight : Nat) :
    (amount * (weight : Int)).tdiv denominator = floorShare amount denominator weight :=
  Int.tdiv_eq_ediv_of_nonneg (Int.mul_nonneg nonneg (Int.natCast_nonneg _))

theorem floorShare_nonneg (nonneg : 0 ≤ amount) (pos : 0 < denominator) (weight : Nat) :
    0 ≤ floorShare amount denominator weight :=
  Int.ediv_nonneg (Int.mul_nonneg nonneg (Int.natCast_nonneg _)) pos.le

theorem floorShare_le {larger : Int} (nonneg : 0 ≤ amount) (pos : 0 < denominator)
    (le : denominator ≤ larger) (weight : Nat) :
    floorShare amount larger weight ≤ floorShare amount denominator weight := by
  have scaled : 0 ≤ amount * (weight : Int) := Int.mul_nonneg nonneg (Int.natCast_nonneg _)
  refine Int.le_ediv_of_mul_le pos ?_
  calc amount * (weight : Int) / larger * denominator
      ≤ amount * (weight : Int) / larger * larger :=
        Int.mul_le_mul_of_nonneg_left le (Int.ediv_nonneg scaled (pos.le.trans le))
    _ ≤ amount * (weight : Int) := Int.ediv_mul_le _ (pos.trans_le le).ne'

@[simp] theorem apportion_items (items : List ι) :
    ∀ left, (apportion weight amount denominator items left).map Prod.fst = items := by
  induction items with
  | nil => exact fun _ => rfl
  | cons item rest ih =>
    intro left
    cases rest with
    | nil => rfl
    | cons next rest => simp only [apportion, map_cons, ih]

theorem apportion_concat (front : List ι) (last : ι) :
    ∀ left, apportion weight amount denominator (front ++ [last]) left =
      front.map (fun item => (item, floorShare amount denominator (weight item))) ++
        [(last, left - (front.map fun item =>
          floorShare amount denominator (weight item)).sum)] := by
  induction front with
  | nil => simp [apportion]
  | cons item front ih =>
    intro left
    have more : ∃ next rest, front ++ [last] = next :: rest := by
      cases front with
      | nil => exact ⟨last, [], rfl⟩
      | cons next front => exact ⟨next, front ++ [last], rfl⟩
    obtain ⟨next, rest, whole⟩ := more
    rw [cons_append, whole, apportion, ← whole, ih]
    simp [Int.sub_sub]

theorem apportion_sum {items : List ι} (someone : items ≠ []) (left : Int) :
    ((apportion weight amount denominator items left).map Prod.snd).sum = left := by
  rw [← dropLast_append_getLast someone, apportion_concat]
  simp [Function.comp_def]

theorem apportion_floor_le (pos : 0 < denominator) (items : List ι) :
    ∀ left, amount * ((items.map weight).sum : Nat) ≤ left * denominator →
      ∀ share ∈ apportion weight amount denominator items left,
        floorShare amount denominator (weight share.1) ≤ share.2 := by
  induction items with
  | nil => exact fun _ _ _ none => absurd none not_mem_nil
  | cons item rest ih =>
    intro left room
    cases rest with
    | nil =>
      simp only [map_cons, map_nil, sum_cons, sum_nil, Nat.add_zero] at room
      intro share member
      rw [mem_singleton.mp member]
      exact Int.ediv_le_of_le_mul pos room
    | cons next rest =>
      have scaled := Int.ediv_mul_le (amount * (weight item : Int)) pos.ne'
      have later : amount * (((next :: rest).map weight).sum : Nat) ≤
          (left - floorShare amount denominator (weight item)) * denominator := by
        rw [map_cons, sum_cons, Nat.cast_add, Int.mul_add] at room
        rw [Int.sub_mul]
        unfold floorShare
        linarith
      intro share member
      rcases mem_cons.mp member with rfl | below
      · exact le_rfl
      · exact ih _ later share below

theorem apportion_nonneg (nonneg : 0 ≤ amount) (pos : 0 < denominator) {items : List ι}
    {left : Int} (room : amount * ((items.map weight).sum : Nat) ≤ left * denominator) :
    ∀ share ∈ apportion weight amount denominator items left, 0 ≤ share.2 := by
  intro share member
  exact (floorShare_nonneg nonneg pos _).trans (apportion_floor_le pos items left room share member)

theorem apportion_whole_nonneg (nonneg : 0 ≤ amount) (items : List ι) :
    ∀ share ∈ apportion weight amount ((items.map weight).sum : Nat) items amount, 0 ≤ share.2 := by
  by_cases weightless : (items.map weight).sum = 0
  · rcases eq_nil_or_concat' items with rfl | ⟨front, last, rfl⟩
    · exact fun _ none => absurd none not_mem_nil
    · have zero : ∀ item, floorShare amount ((0 : Nat) : Int) (weight item) = 0 := fun item =>
        Int.ediv_zero _
      rw [weightless, apportion_concat]
      simp only [zero]
      intro share member
      rcases mem_append.mp member with early | final
      · obtain ⟨item, -, rfl⟩ := mem_map.mp early
        exact le_rfl
      · rw [mem_singleton.mp final]
        simpa using nonneg
  · exact apportion_nonneg nonneg (by omega) le_rfl

end Shares

/-! ### What everyone gets -/

section Received

variable [DecidableEq κ]

/-- What the items with the key `a` get together. -/
def received (key : ι → κ) (shares : List (ι × Int)) (a : κ) : Int :=
  ((shares.filter (key ·.1 = a)).map Prod.snd).sum

variable {key : ι → κ}

@[simp] theorem received_nil (a : κ) : received key [] a = 0 := rfl

@[simp] theorem received_cons (share : ι × Int) (rest : List (ι × Int)) (a : κ) :
    received key (share :: rest) a =
      (if key share.1 = a then share.2 else 0) + received key rest a := by
  by_cases same : key share.1 = a <;> simp [received, same]

theorem received_append (first second : List (ι × Int)) (a : κ) :
    received key (first ++ second) a = received key first a + received key second a := by
  simp [received]

variable {shares : List (ι × Int)}

theorem received_nonneg (key : ι → κ)
    (nonneg : ∀ share ∈ shares, 0 ≤ share.2) (a : κ) : 0 ≤ received key shares a := by
  refine List.sum_nonneg fun value member => ?_
  obtain ⟨share, kept, rfl⟩ := mem_map.mp member
  exact nonneg share (mem_of_mem_filter kept)

theorem received_pos (key : ι → κ)
    (nonneg : ∀ share ∈ shares, 0 ≤ share.2) {share : ι × Int} (member : share ∈ shares)
    (pos : 0 < share.2) : 0 < received key shares (key share.1) := by
  have kept : share ∈ shares.filter (key ·.1 = key share.1) :=
    mem_filter.mpr ⟨member, decide_eq_true rfl⟩
  refine pos.trans_le (single_le_sum (fun value member => ?_) _ (mem_map_of_mem kept))
  obtain ⟨other, listed, rfl⟩ := mem_map.mp member
  exact nonneg other (mem_of_mem_filter listed)

theorem exists_of_received_pos {a : κ} (pos : 0 < received key shares a) :
    ∃ share ∈ shares, 0 < share.2 ∧ key share.1 = a := by
  induction shares with
  | nil => exact absurd pos (lt_irrefl 0)
  | cons share rest ih =>
    rw [received_cons] at pos
    by_cases here : key share.1 = a ∧ 0 < share.2
    · exact ⟨share, mem_cons_self, here.2, here.1⟩
    · have later : 0 < received key rest a := by
        split_ifs at pos with same
        · have small : ¬ 0 < share.2 := fun larger => here ⟨same, larger⟩
          omega
        · omega
      obtain ⟨other, member, larger, same⟩ := ih later
      exact ⟨other, mem_cons_of_mem share member, larger, same⟩

theorem received_sole_iff (key : ι → κ) (nonneg : ∀ share ∈ shares, 0 ≤ share.2) (sole : κ) :
    (∀ a, received key shares a = if sole = a then (shares.map Prod.snd).sum else 0) ↔
      ∀ share ∈ shares, key share.1 = sole ∨ share.2 = 0 := by
  constructor
  · intro everything share member
    by_contra other
    obtain ⟨ne, nonzero⟩ := not_or.mp other
    have pos : 0 < share.2 := lt_of_le_of_ne (nonneg share member) (Ne.symm nonzero)
    have some := received_pos key nonneg member pos
    rw [everything, if_neg (Ne.symm ne)] at some
    exact lt_irrefl 0 some
  · intro others a
    induction shares with
    | nil => simp
    | cons share rest ih =>
      have later := ih (forall_mem_cons.mp nonneg).2 (forall_mem_cons.mp others).2
      rw [received_cons, later, map_cons, sum_cons]
      rcases others share mem_cons_self with same | zero
      · rw [same]
        split_ifs <;> omega
      · rw [zero]
        split_ifs <;> omega

theorem received_map (f : ι → Int) (items : List ι) (a : κ) :
    received key (items.map fun item => (item, f item)) a =
      ((items.filter (key · = a)).map f).sum := by
  rw [received, filter_map, map_map]
  rfl

theorem eq_of_sum_eq {items : List ι} {f g : ι → Int} (le : ∀ item ∈ items, f item ≤ g item)
    (same : (items.map f).sum = (items.map g).sum) : ∀ item ∈ items, f item = g item := by
  intro item member
  refine (le item member).eq_of_not_lt fun less => ?_
  exact (sum_lt_sum f g le ⟨item, member, less⟩).ne same

theorem sum_filter_key (key : ι → κ) (f : ι → Int) (items : List ι) (a : κ) :
    ((items.filter (key · = a)).map f).sum + ((items.filter (key · ≠ a)).map f).sum =
      (items.map f).sum := by
  induction items with
  | nil => rfl
  | cons item rest ih =>
    by_cases same : key item = a
    · simp [same] at ih ⊢
      omega
    · simp [same] at ih ⊢
      omega

variable {weight : ι → Nat} {amount denominator larger : Int}

/-- **Two splits of one amount** give every key the same exactly if they round the same for every
item that has not the key of the last one. -/
theorem received_eq_iff (nonneg : 0 ≤ amount) (pos : 0 < denominator)
    (le : denominator ≤ larger) (front : List ι) (last : ι) :
    (∀ a, received key (apportion weight amount larger (front ++ [last]) amount) a =
        received key (apportion weight amount denominator (front ++ [last]) amount) a) ↔
      ∀ item ∈ front, key item = key last ∨
        floorShare amount larger (weight item) = floorShare amount denominator (weight item) := by
  simp only [apportion_concat, received_append, received_map, received_cons, received_nil,
    Int.add_zero]
  generalize fewerEq : (fun item => floorShare amount larger (weight item)) = fewer
  generalize moreEq : (fun item => floorShare amount denominator (weight item)) = more
  have fewerAt : ∀ item, floorShare amount larger (weight item) = fewer item := by
    intro item
    rw [← fewerEq]
  have moreAt : ∀ item, floorShare amount denominator (weight item) = more item := by
    intro item
    rw [← moreEq]
  have below : ∀ item, fewer item ≤ more item := by
    intro item
    rw [← fewerAt, ← moreAt]
    exact floorShare_le nonneg pos le _
  simp only [fewerAt, moreAt]
  constructor
  · intro same item member
    by_cases lastKey : key item = key last
    · exact .inl lastKey
    · have here := same (key item)
      rw [if_neg (Ne.symm lastKey), if_neg (Ne.symm lastKey), Int.add_zero, Int.add_zero] at here
      refine .inr (eq_of_sum_eq (fun other _ => below other) here item ?_)
      exact mem_filter.mpr ⟨member, decide_eq_true rfl⟩
  · intro same a
    by_cases lastKey : key last = a
    · -- the last key gets the amount without what the others get
      subst lastKey
      have others : ((front.filter (key · ≠ key last)).map fewer).sum =
          ((front.filter (key · ≠ key last)).map more).sum := by
        refine congrArg List.sum (map_congr_left fun item member => ?_)
        obtain ⟨listed, other⟩ := mem_filter.mp member
        exact (same item listed).resolve_left (of_decide_eq_true other)
      have fewerSum := sum_filter_key key fewer front (key last)
      have moreSum := sum_filter_key key more front (key last)
      rw [if_pos rfl, if_pos rfl]
      omega
    · rw [if_neg lastKey, if_neg lastKey, Int.add_zero, Int.add_zero]
      refine congrArg List.sum (map_congr_left fun item member => ?_)
      obtain ⟨listed, here⟩ := mem_filter.mp member
      refine (same item listed).resolve_left fun sameKey => lastKey ?_
      rw [← sameKey]
      exact of_decide_eq_true here

end Received

end EthosContracts.Lib
