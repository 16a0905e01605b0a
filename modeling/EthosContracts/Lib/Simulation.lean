/-
**Lockstep simulation of transactions.**
-/

import EthosContracts.Lib.Transaction

namespace EthosContracts.Lib

variable {ε σ τ α β : Type} {R : σ → τ → Prop}

/-- Two outcomes are the same failure, or the same value with related states. -/
def Agree (R : σ → τ → Prop) : Except ε (α × σ) → Except ε (α × τ) → Prop
  | .ok (a, s), .ok (b, t) => a = b ∧ R s t
  | .error e, .error f => e = f
  | _, _ => False

/-- From related states, `x` and `y` have outcomes that agree. The rules below build this along a
program. -/
def Tx.Simulates (R : σ → τ → Prop) (x : Tx ε σ α) (y : Tx ε τ α) : Prop :=
  ∀ s t, R s t → Agree R (x s) (y t)

theorem simulates_pure (a : α) : Tx.Simulates R (pure a : Tx ε σ α) (pure a : Tx ε τ α) :=
  fun _ _ related => ⟨rfl, related⟩

theorem simulates_fail (failure : ε) :
    Tx.Simulates R (fail failure : Tx ε σ α) (fail failure : Tx ε τ α) :=
  fun _ _ _ => rfl

theorem Tx.Simulates.bind {x : Tx ε σ α} {y : Tx ε τ α} {f : α → Tx ε σ β} {g : α → Tx ε τ β}
    (first : Tx.Simulates R x y) (rest : ∀ a, Tx.Simulates R (f a) (g a)) :
    Tx.Simulates R (x >>= f) (y >>= g) := by
  intro s t related
  have agree := first s t related
  cases left : x s with
  | error failure =>
    cases right : y t with
    | error other =>
      rw [left, right] at agree
      rw [bind_of_error left, bind_of_error right]
      exact agree
    | ok result =>
      rw [left, right] at agree
      exact absurd agree id
  | ok result =>
    cases right : y t with
    | error other =>
      rw [left, right] at agree
      exact absurd agree id
    | ok other =>
      rw [left, right] at agree
      obtain ⟨same, later⟩ := agree
      rw [bind_of_ok left, bind_of_ok right, same]
      exact rest other.1 _ _ later

theorem simulates_read {part : σ → α} {other : τ → α} (same : ∀ s t, R s t → part s = other t) :
    Tx.Simulates R (read part : Tx ε σ α) (read other : Tx ε τ α) :=
  fun s t related => ⟨same s t related, related⟩

theorem simulates_consult {view : σ → Except ε α} {other : τ → Except ε α}
    (same : ∀ s t, R s t → view s = other t) :
    Tx.Simulates R (consult view) (consult other) := by
  intro s t related
  unfold consult
  rw [same s t related]
  cases other t with
  | error failure => exact rfl
  | ok a => exact ⟨rfl, related⟩

theorem simulates_write {change : σ → σ} {other : τ → τ}
    (kept : ∀ s t, R s t → R (change s) (other t)) :
    Tx.Simulates R (write change : Tx ε σ Unit) (write other : Tx ε τ Unit) :=
  fun s t related => ⟨rfl, kept s t related⟩

end EthosContracts.Lib
