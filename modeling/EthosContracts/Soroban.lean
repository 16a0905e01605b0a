/-
**What the host gives every contract**, for the contracts beside `ttl_vault`.
-/

import EthosContracts.TtlVault.State

namespace EthosContracts.Soroban

open Lib
open TtlVault (Address InI128)

/-- The environment of a call. -/
structure Caller where
  self : Address
  now : Nat
  /-- The addresses that authorised the call. -/
  signers : List Address

/-- How a call ends without an effect: with one of the contract's errors, for want of an
authorisation, at an overflow, in a token that refuses a transfer, or in another contract. -/
inductive Halt (ε : Type)
  | error (code : ε)
  | unauthorized
  | overflow
  | transferFailed
  | trapped

variable {ε σ : Type}

/-- The contract never authorises a call of its own entry points. -/
def requireAuth (env : Caller) (address : Address) : Tx (Halt ε) σ Unit :=
  ensure (address ≠ env.self ∧ address ∈ env.signers) .unauthorized

/-- Go on only where the condition holds, else with an error of the contract. -/
def require (condition : Prop) [Decidable condition] (code : ε) : Tx (Halt ε) σ Unit :=
  ensure condition (.error code)

/-- Go on only with a value, else with an error of the contract. -/
def found {α : Type} (value : Option α) (code : ε) : Tx (Halt ε) σ α :=
  expect value (.error code)

/-- The result of plain unsigned arithmetic. -/
def bounded (limit value : Nat) : Tx (Halt ε) σ Nat := do
  ensure (value ≤ limit) .overflow
  pure value

/-- The result of plain `i128` arithmetic. -/
def signed (value : Int) : Tx (Halt ε) σ Int := do
  ensure (InI128 value) .overflow
  pure value

/-- The result of a `checked_*` operation. -/
def checked (code : ε) (value : Int) : Tx (Halt ε) σ Int := do
  require (InI128 value) code
  pure value

/-- What every outcome of these satisfies, under one name for `simp`. -/
@[simp] theorem wp_rules {s : σ} : (∀ (env : Caller) address Q,
      Tx.wp (requireAuth env address : Tx (Halt ε) σ Unit) s Q ↔
        (address ≠ env.self ∧ address ∈ env.signers → Q () s)) ∧
    (∀ (condition : Prop) [Decidable condition] (code : ε) Q,
      Tx.wp (require condition code : Tx (Halt ε) σ Unit) s Q ↔ (condition → Q () s)) ∧
    (∀ {α : Type} (value : Option α) (code : ε) Q,
      Tx.wp (found value code : Tx (Halt ε) σ α) s Q ↔ ∀ a, value = some a → Q a s) ∧
    (∀ limit value Q,
      Tx.wp (bounded limit value : Tx (Halt ε) σ Nat) s Q ↔ (value ≤ limit → Q value s)) ∧
    (∀ value Q, Tx.wp (signed value : Tx (Halt ε) σ Int) s Q ↔ (InI128 value → Q value s)) ∧
    ∀ (code : ε) value Q,
      Tx.wp (checked code value : Tx (Halt ε) σ Int) s Q ↔ (InI128 value → Q value s) := by
  simp only [requireAuth, require, found, bounded, signed, checked, wp_core, implies_true, and_self]

end EthosContracts.Soroban
