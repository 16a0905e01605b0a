/-
**Procedures: guarded computations over a state whose failures keep what was done before them.**

The counterpart of transactions for code that changes a value in place and returns early.

* `Proc.ends x s Q E` — `x` ends from `s` with a value and a state that satisfy `Q`, or with a
  failure and a state that satisfy `E`. The rules `ends_bind`, `ends_ensure`, … turn a program into
  the conditions on both.
-/

import Mathlib.Data.List.Induction
import Mathlib.Logic.Unique
import EthosContracts.Lib.Run

namespace EthosContracts.Lib

/-- A computation that returns a value or fails, and leaves a state either way. -/
abbrev Proc (ε σ α : Type) : Type := EStateM ε σ α

namespace Proc

variable {ε σ ρ α β : Type}

def ensure (condition : Prop) [Decidable condition] (failure : ε) : Proc ε σ Unit := fun s =>
  if condition then .ok () s else .error failure s

def expect (value : Option α) (failure : ε) : Proc ε σ α := fun s =>
  match value with
  | some a => .ok a s
  | none => .error failure s

def read (part : σ → α) : Proc ε σ α := fun s => .ok (part s) s

def write (change : σ → σ) : Proc ε σ Unit := fun s => .ok () (change s)

def zoom (part : σ → ρ) (put : ρ → σ → σ) (x : Proc ε ρ α) : Proc ε σ α := fun s =>
  match x (part s) with
  | .ok a r => .ok a (put r s)
  | .error e r => .error e (put r s)

/-- `x` ends with a value as `Q` says, or fails as `E` says. -/
def ends (x : Proc ε σ α) (s : σ) (Q : α → σ → Prop) (E : ε → σ → Prop) : Prop :=
  (∀ a t, x s = .ok a t → Q a t) ∧ ∀ e t, x s = .error e t → E e t

section Rules

variable {s : σ} {Q : α → σ → Prop} {E : ε → σ → Prop}

variable {x : Proc ε σ α} {t : σ}

theorem ends_of_ok {a : α} (ran : x s = .ok a t) : ends x s Q E ↔ Q a t := by
  simp [ends, ran]

theorem ends_of_error {e : ε} (failed : x s = .error e t) : ends x s Q E ↔ E e t := by
  simp [ends, failed]

theorem ends.mono {Q' : α → σ → Prop} {E' : ε → σ → Prop} (holds : ends x s Q E)
    (values : ∀ a t, Q a t → Q' a t) (failures : ∀ e t, E e t → E' e t) : ends x s Q' E' :=
  ⟨fun a t ran => values a t (holds.1 a t ran), fun e t failed => failures e t (holds.2 e t failed)⟩

@[simp] theorem ends_pure (a : α) : ends (pure a : Proc ε σ α) s Q E ↔ Q a s := ends_of_ok rfl

@[simp] theorem ends_bind (x : Proc ε σ β) (f : β → Proc ε σ α) :
    ends (x >>= f) s Q E ↔ ends x s (fun b t => ends (f b) t Q E) E := by
  cases outcome : x s with
  | ok b t =>
    have whole : (x >>= f) s = f b t := by simp [bind, EStateM.bind, outcome]
    rw [ends_of_ok outcome, ends, ends, whole]
  | error e t =>
    have whole : (x >>= f) s = .error e t := by simp [bind, EStateM.bind, outcome]
    rw [ends_of_error outcome, ends_of_error whole]

@[simp] theorem ends_ensure (condition : Prop) [Decidable condition] (failure : ε)
    {Q : Unit → σ → Prop} :
    ends (ensure condition failure) s Q E ↔ (condition → Q () s) ∧ (¬ condition → E failure s) := by
  by_cases holds : condition <;> simp [ends, ensure, holds, Unique.forall_iff]

@[simp] theorem ends_expect (value : Option α) (failure : ε) : ends (expect value failure) s Q E ↔
      (∀ a, value = some a → Q a s) ∧ (value = none → E failure s) := by
  cases value with
  | none => simp [ends, expect]
  | some a => simp [ends, expect]

@[simp] theorem ends_read (part : σ → α) : ends (read part) s Q E ↔ Q (part s) s := ends_of_ok rfl

@[simp] theorem ends_write (change : σ → σ) {Q : Unit → σ → Prop} :
    ends (write change) s Q E ↔ Q () (change s) :=
  ends_of_ok rfl

@[simp] theorem ends_zoom (part : σ → ρ) (put : ρ → σ → σ) (x : Proc ε ρ α) :
    ends (zoom part put x) s Q E ↔
      ends x (part s) (fun a r => Q a (put r s)) fun e r => E e (put r s) := by
  cases outcome : x (part s) with
  | ok a r =>
    rw [ends_of_ok outcome, ends_of_ok (by rw [zoom, outcome])]
  | error e r =>
    rw [ends_of_error outcome, ends_of_error (by rw [zoom, outcome])]

@[simp] theorem ends_ite (condition : Prop) [Decidable condition] (x y : Proc ε σ α) :
    ends (if condition then x else y) s Q E ↔
      (condition → ends x s Q E) ∧ (¬ condition → ends y s Q E) := by
  by_cases holds : condition <;> simp [holds]

end Rules

section Success

variable {s t : σ} {a : α}

theorem bind_eq_ok_iff {x : Proc ε σ β} {f : β → Proc ε σ α} :
    (x >>= f) s = .ok a t ↔ ∃ b u, x s = .ok b u ∧ f b u = .ok a t := by
  cases outcome : x s with
  | ok b u =>
    have whole : (x >>= f) s = f b u := by simp [bind, EStateM.bind, outcome]
    rw [whole]
    simp
  | error e u =>
    have whole : (x >>= f) s = .error e u := by simp [bind, EStateM.bind, outcome]
    rw [whole]
    simp

theorem pure_eq_ok_iff {b : α} : (pure b : Proc ε σ α) s = .ok a t ↔ a = b ∧ t = s := by
  have ended : (pure b : Proc ε σ α) s = .ok b s := rfl
  rw [ended]
  simp [eq_comm]

theorem read_eq_ok_iff {part : σ → α} :
    (read part : Proc ε σ α) s = .ok a t ↔ a = part s ∧ t = s := by
  simp [read, eq_comm]

theorem write_eq_ok_iff {change : σ → σ} {u : Unit} :
    (write change : Proc ε σ Unit) s = .ok u t ↔ t = change s := by
  simp [write, eq_comm]

theorem ite_eq_ok_iff {condition : Prop} [Decidable condition] {x y : Proc ε σ α} :
    (if condition then x else y) s = .ok a t ↔
      condition ∧ x s = .ok a t ∨ ¬ condition ∧ y s = .ok a t := by
  by_cases holds : condition <;> simp [holds]

end Success

def after (x : Proc ε σ α) (s : σ) : σ :=
  match x s with
  | .ok _ t => t
  | .error _ t => t

def result (x : Proc ε σ α) (s : σ) : Except ε α :=
  match x s with
  | .ok a _ => .ok a
  | .error e _ => .error e

variable {x : Proc ε σ α} {s : σ} {a : α}

theorem result_eq_ok_iff : x.result s = .ok a ↔ ∃ t, x s = .ok a t := by
  unfold result
  cases outcome : x s <;> simp

theorem after_of_ok {t : σ} (ran : x s = .ok a t) : x.after s = t := by
  rw [Proc.after, ran]

def failure (x : Proc ε σ α) (s : σ) : Option ε :=
  match x s with
  | .ok _ _ => none
  | .error e _ => some e

theorem ends.after_ok {Q : α → σ → Prop} {E : ε → σ → Prop}
    (holds : ends x s Q E) (ran : x.failure s = none) : ∃ a, Q a (x.after s) := by
  unfold Proc.after
  unfold failure at ran
  cases outcome : x s with
  | ok a t => exact ⟨a, holds.1 a t outcome⟩
  | error e t =>
    rw [outcome] at ran
    cases ran

theorem ends.after {P : σ → Prop} {excluded : ε}
    (holds : ends x s (fun _ t => P t) fun e t => e ≠ excluded → P t)
    (ran : x.failure s ≠ some excluded) : P (x.after s) := by
  unfold Proc.after
  unfold failure at ran
  cases outcome : x s with
  | ok a t => exact holds.1 a t outcome
  | error e t =>
    rw [outcome] at ran
    exact holds.2 e t outcome fun same => ran (congrArg some same)

end Proc

variable {ε σ ι : Type}

/-- The run of a list of inputs, failed ones included. -/
def perform (exec : ι → Proc ε σ Unit) (start : σ) (inputs : List ι) : List (Event σ ι) × σ :=
  inputs.foldl (fun record input =>
    (record.1 ++ [⟨record.2, input, (exec input).after record.2⟩], (exec input).after record.2))
    ([], start)

theorem perform_concat (exec : ι → Proc ε σ Unit) (start : σ) (inputs : List ι) (input : ι) :
    perform exec start (inputs ++ [input]) = ((perform exec start inputs).1 ++
          [⟨(perform exec start inputs).2, input, (exec input).after (perform exec start inputs).2⟩],
        (exec input).after (perform exec start inputs).2) := by
  rw [perform, List.foldl_append]
  rfl

theorem perform_run {exec : ι → Proc ε σ Unit} {step : σ → ι → σ → Prop} {start : σ}
    {inputs : List ι}
    (allowed : ∀ event ∈ (perform exec start inputs).1,
      event.after = (exec event.input).after event.before →
        step event.before event.input event.after) :
    Run step start (perform exec start inputs).1 (perform exec start inputs).2 := by
  induction inputs using List.reverseRecOn with
  | nil => exact .nil
  | append_singleton inputs input ih =>
    rw [perform_concat] at allowed ⊢
    have run := ih (forall_mem_concat.mp allowed).1
    exact run.snoc (allowed _ List.mem_concat_self rfl)

end EthosContracts.Lib
