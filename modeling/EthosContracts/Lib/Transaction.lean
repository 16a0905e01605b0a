/-
**Transactions: guarded computations over a state that take effect as a whole or not at all.**

The rules `wp_bind`, `wp_ensure`, … turn a program into the implication between its guards and its
effect. The same rules for `Tx.succeeds`, with every guard as a conjunct, give the exact condition
of success.
-/

import Mathlib.Logic.Unique
import Mathlib.Data.List.Basic

namespace EthosContracts.Lib

/-- A computation on a state `σ`. A failed one returns an error and no state. -/
abbrev Tx (ε σ α : Type) : Type := StateT σ (Except ε) α

variable {ε σ α β : Type}

/-! ### Guards and accesses -/

/-- Stop with `failure` unless the condition holds. -/
def ensure (condition : Prop) [Decidable condition] (failure : ε) : Tx ε σ Unit := fun s =>
  if condition then .ok ((), s) else .error failure

/-- The value of an option, which must be there. -/
def expect (value : Option α) (failure : ε) : Tx ε σ α := fun s =>
  match value with
  | some a => .ok (a, s)
  | none => .error failure

/-- Stop. -/
def fail (failure : ε) : Tx ε σ α := fun _ => .error failure

/-- A part of the state. -/
def read (part : σ → α) : Tx ε σ α := fun s => .ok (part s, s)

/-- Compute from the state without changing it; the computation may fail. -/
def consult (view : σ → Except ε α) : Tx ε σ α := fun s => (view s).map fun a => (a, s)

/-- Change the state. -/
def write (change : σ → σ) : Tx ε σ Unit := fun s => .ok ((), change s)

/-! ### What every outcome satisfies -/

/-- Every outcome of `x` from `s` satisfies `Q`. -/
def Tx.wp (x : Tx ε σ α) (s : σ) (Q : α → σ → Prop) : Prop :=
  ∀ a t, x s = .ok (a, t) → Q a t

/-- `x` has an outcome from `s`, and it satisfies `Q`. -/
def Tx.succeeds (x : Tx ε σ α) (s : σ) (Q : α → σ → Prop) : Prop :=
  ∃ a t, x s = .ok (a, t) ∧ Q a t

variable {x : Tx ε σ α} {f : α → Tx ε σ β} {s t : σ} {a : α} {Q R : α → σ → Prop}

theorem bind_of_ok (ran : x s = .ok (a, t)) : (x >>= f) s = f a t := by
  simp only [bind, StateT.bind, Except.bind, ran]

theorem bind_of_error {failure : ε}
    (failed : x s = .error failure) : (x >>= f) s = .error failure := by
  simp only [bind, StateT.bind, Except.bind, failed]

/-- A sequence succeeds if both parts do. -/
theorem bind_eq_ok {b : β} {u : σ} :
    (x >>= f) s = .ok (b, u) ↔ ∃ a t, x s = .ok (a, t) ∧ f a t = .ok (b, u) := by
  constructor
  · intro outcome
    simp only [bind, StateT.bind, Except.bind] at outcome
    split at outcome
    · cases outcome
    · rename_i first ran
      exact ⟨first.1, first.2, ran, outcome⟩
  · rintro ⟨a, t, ran, rest⟩
    rw [bind_of_ok ran]
    exact rest

section Rules

variable (s : σ) (Q : α → σ → Prop) (condition : Prop) [Decidable condition] (failure : ε)

@[simp] theorem wp_bind (x : Tx ε σ β) (f : β → Tx ε σ α) :
    Tx.wp (x >>= f) s Q ↔ Tx.wp x s fun b t => Tx.wp (f b) t Q := by
  constructor
  · intro holds b t ran a u rest
    exact holds a u (bind_eq_ok.mpr ⟨b, t, ran, rest⟩)
  · intro holds a u outcome
    obtain ⟨b, t, ran, rest⟩ := bind_eq_ok.mp outcome
    exact holds b t ran a u rest

@[simp] theorem succeeds_bind (x : Tx ε σ β) (f : β → Tx ε σ α) :
    Tx.succeeds (x >>= f) s Q ↔ Tx.succeeds x s fun b t => Tx.succeeds (f b) t Q := by
  constructor
  · rintro ⟨a, u, outcome, holds⟩
    obtain ⟨b, t, ran, rest⟩ := bind_eq_ok.mp outcome
    exact ⟨b, t, ran, a, u, rest, holds⟩
  · rintro ⟨b, t, ran, a, u, rest, holds⟩
    exact ⟨a, u, bind_eq_ok.mpr ⟨b, t, ran, rest⟩, holds⟩

@[simp] theorem wp_pure (a : α) : Tx.wp (pure a : Tx ε σ α) s Q ↔ Q a s := by
  constructor
  · intro holds
    exact holds a s rfl
  · intro holds b t outcome
    cases outcome
    exact holds

@[simp] theorem succeeds_pure (a : α) : Tx.succeeds (pure a : Tx ε σ α) s Q ↔ Q a s := by
  constructor
  · rintro ⟨b, t, outcome, holds⟩
    cases outcome
    exact holds
  · intro holds
    exact ⟨a, s, rfl, holds⟩

@[simp] theorem wp_map (f : β → α) (x : Tx ε σ β) :
    Tx.wp (f <$> x) s Q ↔ Tx.wp x s fun b t => Q (f b) t := by
  rw [← bind_pure_comp, wp_bind]
  simp only [wp_pure]

@[simp] theorem wp_ensure (Q : Unit → σ → Prop) :
    Tx.wp (ensure condition failure) s Q ↔ (condition → Q () s) := by
  unfold Tx.wp ensure
  by_cases holds : condition <;> simp [holds, Unique.forall_iff]

@[simp] theorem succeeds_ensure (Q : Unit → σ → Prop) :
    Tx.succeeds (ensure condition failure) s Q ↔ (condition ∧ Q () s) := by
  unfold Tx.succeeds ensure
  by_cases holds : condition <;> simp [holds, Unique.exists_iff]

@[simp] theorem wp_expect (value : Option α) :
    Tx.wp (expect value failure) s Q ↔ ∀ a, value = some a → Q a s := by
  unfold Tx.wp expect
  cases value <;> simp

@[simp] theorem succeeds_expect (value : Option α) :
    Tx.succeeds (expect value failure) s Q ↔ ∃ a, value = some a ∧ Q a s := by
  unfold Tx.succeeds expect
  cases value <;> simp

@[simp] theorem wp_fail : Tx.wp (fail failure : Tx ε σ α) s Q ↔ True := by
  simp [Tx.wp, fail]

@[simp] theorem wp_read (part : σ → α) : Tx.wp (read part : Tx ε σ α) s Q ↔ Q (part s) s := by
  simp [Tx.wp, read]

@[simp] theorem succeeds_read (part : σ → α) :
    Tx.succeeds (read part : Tx ε σ α) s Q ↔ Q (part s) s := by
  simp [Tx.succeeds, read]

@[simp] theorem wp_consult (view : σ → Except ε α) :
    Tx.wp (consult view) s Q ↔ ∀ a, view s = .ok a → Q a s := by
  unfold Tx.wp consult
  cases view s <;> simp [Except.map]

@[simp] theorem succeeds_consult (view : σ → Except ε α) :
    Tx.succeeds (consult view) s Q ↔ ∃ a, view s = .ok a ∧ Q a s := by
  unfold Tx.succeeds consult
  cases view s <;> simp [Except.map]

@[simp] theorem wp_write (change : σ → σ) (Q : Unit → σ → Prop) :
    Tx.wp (write change : Tx ε σ Unit) s Q ↔ Q () (change s) := by
  simp [Tx.wp, write, Unique.forall_iff]

@[simp] theorem succeeds_write (change : σ → σ) (Q : Unit → σ → Prop) :
    Tx.succeeds (write change : Tx ε σ Unit) s Q ↔ Q () (change s) := by
  simp [Tx.succeeds, write, Unique.exists_iff]

@[simp] theorem wp_ite (x y : Tx ε σ α) : Tx.wp (if condition then x else y) s Q ↔
    (condition → Tx.wp x s Q) ∧ (¬ condition → Tx.wp y s Q) := by
  by_cases holds : condition <;> simp [holds]

@[simp] theorem succeeds_ite (x y : Tx ε σ α) : Tx.succeeds (if condition then x else y) s Q ↔
    (condition → Tx.succeeds x s Q) ∧ (¬ condition → Tx.succeeds y s Q) := by
  by_cases holds : condition <;> simp [holds]

end Rules

/-- The rules of the constructs, under one name for `simp`. -/
theorem wp_core : (∀ {α β : Type} (x : Tx ε σ α) (f : α → Tx ε σ β) Q,
      Tx.wp (x >>= f) s Q ↔ Tx.wp x s fun a t => Tx.wp (f a) t Q) ∧
    (∀ {α : Type} (a : α) Q, Tx.wp (pure a : Tx ε σ α) s Q ↔ Q a s) ∧
    (∀ {α : Type} (part : σ → α) Q, Tx.wp (read part : Tx ε σ α) s Q ↔ Q (part s) s) ∧
    (∀ change Q, Tx.wp (write change : Tx ε σ Unit) s Q ↔ Q () (change s)) ∧
    (∀ (condition : Prop) [Decidable condition] failure Q,
      Tx.wp (ensure condition failure : Tx ε σ Unit) s Q ↔ (condition → Q () s)) ∧
    (∀ {α : Type} (value : Option α) failure Q,
      Tx.wp (expect value failure : Tx ε σ α) s Q ↔ ∀ a, value = some a → Q a s) ∧
    ∀ {α : Type} (condition : Prop) [Decidable condition] (x y : Tx ε σ α) Q,
      Tx.wp (if condition then x else y) s Q ↔
        (condition → Tx.wp x s Q) ∧ (¬ condition → Tx.wp y s Q) := by
  simp only [wp_bind, wp_pure, wp_read, wp_write, wp_ensure, wp_expect, wp_ite, implies_true,
    and_self]

/-! ### Consequences -/

/-- The rule of consequence. -/
theorem Tx.wp.mono (holds : x.wp s Q) (weaker : ∀ a t, Q a t → R a t) : x.wp s R :=
  fun a t outcome => weaker a t (holds a t outcome)

theorem Tx.wp.const {fact : Prop} (holds : fact) : x.wp s fun _ _ => fact :=
  fun _ _ _ => holds

theorem Tx.wp.and (first : x.wp s Q) (second : x.wp s R) : x.wp s fun a t => Q a t ∧ R a t :=
  fun a t outcome => ⟨first a t outcome, second a t outcome⟩

theorem Tx.succeeds.mono (holds : x.succeeds s Q)
    (weaker : ∀ a t, Q a t → R a t) : x.succeeds s R := by
  obtain ⟨a, t, outcome, result⟩ := holds
  exact ⟨a, t, outcome, weaker a t result⟩

/-- What every outcome satisfies, the one at hand does. -/
theorem Tx.succeeds.of_wp
    (some : x.succeeds s R) (every : x.wp s Q) : x.succeeds s fun a t => R a t ∧ Q a t := by
  obtain ⟨a, t, outcome, holds⟩ := some
  exact ⟨a, t, outcome, holds, every a t outcome⟩

theorem Tx.succeeds.isOk (holds : x.succeeds s Q) : (x s).isOk = true := by
  obtain ⟨a, t, outcome, -⟩ := holds
  rw [outcome]
  rfl

/-- An outcome, as a statement that `succeeds_bind` and its like rewrite. -/
theorem Tx.eq_ok_iff : x s = .ok (a, t) ↔ x.succeeds s fun b u => b = a ∧ u = t := by
  constructor
  · intro outcome
    exact ⟨a, t, outcome, rfl, rfl⟩
  · rintro ⟨_, _, outcome, rfl, rfl⟩
    exact outcome

theorem Tx.isOk_iff_succeeds : (x s).isOk = true ↔ x.succeeds s fun _ _ => True := by
  constructor
  · intro ok
    cases outcome : x s with
    | ok result => exact ⟨result.1, result.2, outcome, trivial⟩
    | error failure =>
      rw [outcome] at ok
      cases ok
  · exact Tx.succeeds.isOk

instance Tx.decidableSucceeds (x : Tx ε σ α) (s : σ) (Q : α → σ → Prop)
    [∀ a t, Decidable (Q a t)] : Decidable (x.succeeds s Q) :=
  match outcome : x s with
  | .ok (a, t) => decidable_of_iff (Q a t) <| by
      constructor
      · exact fun holds => ⟨a, t, outcome, holds⟩
      · rintro ⟨b, u, other, holds⟩
        obtain ⟨rfl, rfl⟩ := Prod.mk.inj (Except.ok.inj (outcome.symm.trans other))
        exact holds
  | .error failure => isFalse <| by
      rintro ⟨b, u, other, -⟩
      cases outcome.symm.trans other

/-- `x` writes nothing. -/
def Tx.Readonly (x : Tx ε σ α) : Prop := ∀ s, x.wp s fun _ t => t = s

theorem Tx.Readonly.wp (readonly : x.Readonly) (holds : ∀ a, Q a s) : x.wp s Q := by
  refine (readonly s).mono fun a t same => ?_
  rw [same]
  exact holds a

theorem Tx.Readonly.succeeds (readonly : x.Readonly) {P : α → σ → Prop}
    (passes : x.succeeds s P) (holds : ∀ a, P a s → Q a s) : x.succeeds s Q := by
  obtain ⟨a, t, outcome, passed⟩ := passes
  obtain rfl := readonly s a t outcome
  exact ⟨a, t, outcome, holds a passed⟩

/-- `x` leaves a part of the state as it is. -/
def Tx.Keeps {γ : Type} (view : σ → γ) (x : Tx ε σ α) : Prop :=
  ∀ s, x.wp s fun _ t => view t = view s

/-- The state after a computation; a failing one leaves the state as it is. -/
def Tx.after (x : Tx ε σ α) (s : σ) : σ :=
  match x s with
  | .ok (_, t) => t
  | .error _ => s

/-- A property that the outcomes have and the state had is kept. -/
theorem Tx.wp.after {P : σ → Prop} (holds : x.wp s fun _ => P) (before : P s) : P (x.after s) := by
  unfold Tx.after
  cases outcome : x s with
  | ok result => exact holds _ _ outcome
  | error failure => exact before

theorem Tx.eq_ok_after {x : Tx ε σ Unit} (ok : (x s).isOk = true) : x s = .ok ((), x.after s) := by
  unfold Tx.after
  cases outcome : x s with
  | ok result => rfl
  | error failure => simp [outcome, Except.isOk, Except.toBool] at ok

/-! ### Larger states -/

/-- `x` on a part of a larger state. -/
def Tx.zoom {τ : Type} (part : τ → σ) (put : σ → τ → τ) (x : Tx ε σ α) : Tx ε τ α := fun s =>
  (x (part s)).map fun result => (result.1, put result.2 s)

section Zoom

variable {τ : Type} (part : τ → σ) (put : σ → τ → τ) (x : Tx ε σ α) (s : τ) (Q : α → τ → Prop)

@[simp] theorem wp_zoom : Tx.wp (x.zoom part put) s Q ↔ x.wp (part s) fun a t => Q a (put t s) := by
  unfold Tx.wp Tx.zoom
  rcases x (part s) with failure | ⟨a, t⟩ <;> simp [Except.map]

end Zoom

/-! ### Outcomes and failures -/

/-- An outcome of `x` from `s` satisfies `Q`, and a failure satisfies `E`. -/
def Tx.meets (x : Tx ε σ α) (s : σ) (Q : α → σ → Prop) (E : ε → Prop) : Prop :=
  match x s with
  | .ok (a, t) => Q a t
  | .error failure => E failure

section Meets

variable (s : σ) (Q : α → σ → Prop) (E : ε → Prop) (condition : Prop) [Decidable condition]
  (failure : ε)

theorem meets_bind (x : Tx ε σ β) (f : β → Tx ε σ α) :
    Tx.meets (x >>= f) s Q E ↔ x.meets s (fun b t => (f b).meets t Q E) E := by
  unfold Tx.meets
  cases ran : x s with
  | ok result => rw [bind_of_ok ran]
  | error failure => rw [bind_of_error ran]

theorem meets_pure (a : α) : Tx.meets (pure a : Tx ε σ α) s Q E ↔ Q a s := Iff.rfl

theorem meets_read (part : σ → α) : Tx.meets (read part) s Q E ↔ Q (part s) s := Iff.rfl

theorem meets_write (change : σ → σ) (Q : Unit → σ → Prop) :
    Tx.meets (write change) s Q E ↔ Q () (change s) := Iff.rfl

theorem meets_ensure (Q : Unit → σ → Prop) : Tx.meets (ensure condition failure) s Q E ↔
    (condition → Q () s) ∧ (¬ condition → E failure) := by
  by_cases holds : condition <;> simp [Tx.meets, ensure, holds]

theorem meets_expect (value : Option α) : Tx.meets (expect value failure) s Q E ↔
    (∀ a, value = some a → Q a s) ∧ (value = none → E failure) := by
  cases value <;> simp [Tx.meets, expect]

theorem meets_ite (x y : Tx ε σ α) : Tx.meets (if condition then x else y) s Q E ↔
    (condition → x.meets s Q E) ∧ (¬ condition → y.meets s Q E) := by
  by_cases holds : condition <;> simp [holds]

/-- A failure does not occur if every other outcome is allowed. -/
theorem Tx.ne_error_iff {x : Tx ε σ α} {failure : ε} :
    x s ≠ .error failure ↔ x.meets s (fun _ _ => True) (· ≠ failure) := by
  unfold Tx.meets
  cases x s <;> simp

end Meets

/-! ### Failures that cannot occur -/

/-- `x` never stops with this failure. -/
def Tx.Avoids (x : Tx ε σ α) (failure : ε) : Prop := ∀ s, x s ≠ .error failure

section Avoids

variable {failure : ε}

theorem avoids_forM {items : List α} {body : α → Tx ε σ PUnit}
    (each : ∀ a ∈ items, (body a).Avoids failure) : Tx.Avoids (List.forM items body) failure := by
  induction items with
  | nil =>
    intro s failed
    cases failed
  | cons a rest ih =>
    intro s failed
    have later := ih fun b member => each b (List.mem_cons_of_mem a member)
    cases ran : body a s with
    | ok result => exact later _ ((bind_of_ok ran).symm.trans failed)
    | error other =>
      exact each a List.mem_cons_self s (ran.trans ((bind_of_error ran).symm.trans failed))

end Avoids

section Loops

variable (a : α) (rest : List α) (body : α → Tx ε σ PUnit) (s : σ) (Q : PUnit → σ → Prop)

theorem wp_forM_nil : Tx.wp (List.forM [] body) s Q ↔ Q ⟨⟩ s :=
  wp_pure s Q PUnit.unit

theorem wp_forM_cons : Tx.wp (List.forM (a :: rest) body) s Q ↔
    Tx.wp (body a) s fun _ t => Tx.wp (List.forM rest body) t Q :=
  wp_bind s Q (body a) fun _ => List.forM rest body

theorem succeeds_forM_nil : Tx.succeeds (List.forM [] body) s Q ↔ Q ⟨⟩ s :=
  succeeds_pure s Q PUnit.unit

theorem succeeds_forM_cons : Tx.succeeds (List.forM (a :: rest) body) s Q ↔
    Tx.succeeds (body a) s fun _ t => Tx.succeeds (List.forM rest body) t Q :=
  succeeds_bind s Q (body a) fun _ => List.forM rest body

variable {items : List α} {body}

/-- A loop keeps what its body keeps. -/
theorem wp_forM_invariant (invariant : σ → Prop)
    (step : ∀ a ∈ items, ∀ s, invariant s → (body a).wp s fun _ t => invariant t) :
    ∀ s, invariant s → Tx.wp (List.forM items body) s fun _ t => invariant t := by
  induction items with
  | nil =>
    intro s holds
    exact (wp_forM_nil body s _).mpr holds
  | cons a rest ih =>
    intro s holds
    rw [wp_forM_cons]
    refine (step a List.mem_cons_self s holds).mono fun _ t kept => ?_
    exact ih (List.forall_mem_cons.mp step).2 t kept

/-- A loop of checks: it writes nothing, and all items pass. -/
theorem wp_forM_checks (checked : α → Prop) {s : σ}
    (check : ∀ a, (body a).wp s fun _ t => t = s ∧ checked a) :
    Tx.wp (List.forM items body) s fun _ t => t = s ∧ ∀ a ∈ items, checked a := by
  induction items with
  | nil =>
    rw [wp_forM_nil]
    exact ⟨rfl, nofun⟩
  | cons a rest ih =>
    rw [wp_forM_cons]
    refine (check a).mono ?_
    rintro _ t ⟨rfl, here⟩
    refine ih.mono ?_
    rintro _ u ⟨rfl, later⟩
    refine ⟨rfl, fun b member => ?_⟩
    rcases List.mem_cons.mp member with same | below
    · rw [same]
      exact here
    · exact later b below

end Loops

end EthosContracts.Lib
