/-
**The yield manager of `vault-yield`**: principal of many vaults in one yield protocol.

Calls change the manager in place, so what was done before a failure stays: every call but one with
a zero amount harvests first.

A subtraction below zero, which the source's build traps on, counts as an overflow.
-/

import Mathlib.Logic.Function.Basic
import EthosContracts.Lib.Procedure

namespace EthosContracts.VaultYield

open Lib Lib.Proc

/-! ### Protocols -/

def bpsDenominator : Nat := 10000
def secondsPerYear : Nat := 365 * 86400
def indexScale : Nat := 1000000000000000000
def maxU128 : Nat := 340282366920938463463374607431768211455

inductive YieldError
  | zeroAmount
  | unknownVault
  | insufficientPrincipal
  | insufficientYield
  | insufficientLiquidity
  | overflow
deriving DecidableEq

variable {σ P : Type}

def checked (value : Nat) : Proc YieldError σ Nat := do
  ensure (value ≤ maxU128) .overflow
  pure value

/-- A yield-generating venue; `value` reports the whole position. -/
structure YieldProtocol (P : Type) where
  deposit : (now amount : Nat) → Proc YieldError P Unit
  withdraw : (now amount : Nat) → Proc YieldError P Unit
  value : (now : Nat) → Proc YieldError P Nat

/-- **A protocol without losses**: what it is worth changes by the deposited and the withdrawn
amounts and by gains. -/
structure Lawful (protocol : YieldProtocol P) (worth : P → Nat) : Prop where
  value : ∀ now p, (protocol.value now).ends p (fun value q => value = worth q ∧ worth p ≤ worth q)
    fun _ q => worth p ≤ worth q
  deposit : ∀ now amount p, (protocol.deposit now amount).ends p
    (fun _ q => worth p + amount ≤ worth q) fun _ q => worth p ≤ worth q
  withdraw : ∀ now amount p, (protocol.withdraw now amount).ends p
    (fun _ q => worth p ≤ worth q + amount) fun _ q => worth p ≤ worth q

/-- Simple interest at a fixed annual rate. -/
structure FixedRateProtocol where
  rateBps : Nat
  value : Nat
  lastUpdate : Nat
deriving DecidableEq

def FixedRateProtocol.new (rateBps now : Nat) : FixedRateProtocol := ⟨rateBps, 0, now⟩

def accrue (now : Nat) : Proc YieldError FixedRateProtocol Unit := do
  let protocol ← read id
  let yearly ← checked (protocol.value * protocol.rateBps)
  let scaled ← checked (yearly * (now - protocol.lastUpdate))
  let gain := scaled / (bpsDenominator * secondsPerYear)
  let value ← checked (protocol.value + gain)
  write fun protocol => { protocol with
    value := value
    lastUpdate := max protocol.lastUpdate now }

def fixedRate : YieldProtocol FixedRateProtocol where
  deposit now amount := do
    accrue now
    let value ← read FixedRateProtocol.value
    let next ← checked (value + amount)
    write fun protocol => { protocol with value := next }
  withdraw now amount := do
    accrue now
    let value ← read FixedRateProtocol.value
    ensure (amount ≤ value) .insufficientLiquidity
    write fun protocol => { protocol with value := value - amount }
  value now := do
    accrue now
    read FixedRateProtocol.value

@[simp] theorem ends_checked (value : Nat) {s : σ} {Q : Nat → σ → Prop}
    {E : YieldError → σ → Prop} :
    (checked value).ends s Q E ↔ (value ≤ maxU128 → Q value s) ∧
      (¬ value ≤ maxU128 → E .overflow s) := by
  simp only [checked, ends_bind, ends_ensure, ends_pure]

theorem accrue_ends (now : Nat) (p : FixedRateProtocol) :
    (accrue now).ends p (fun _ q => p.value ≤ q.value) fun _ q => p.value ≤ q.value := by
  simp only [accrue, ends_bind, ends_read, ends_checked, ends_write, id_eq]
  refine ⟨fun _ => ⟨fun _ => ⟨fun _ => Nat.le_add_right _ _, fun _ => ?_⟩, fun _ => ?_⟩,
    fun _ => ?_⟩ <;> exact Nat.le_refl _

theorem fixedRate_lawful : Lawful fixedRate FixedRateProtocol.value where
  value now p := by
    simp only [fixedRate, ends_bind, ends_read]
    exact (accrue_ends now p).mono (fun _ _ more => ⟨trivial, more⟩) fun _ _ more => more
  deposit now amount p := by
    simp only [fixedRate, ends_bind, ends_read, ends_checked, ends_write]
    exact (accrue_ends now p).mono
      (fun _ _ more => ⟨fun _ => Nat.add_le_add_right more _, fun _ => more⟩) fun _ _ more => more
  withdraw now amount p := by
    simp only [fixedRate, ends_bind, ends_read, ends_ensure, ends_write]
    refine (accrue_ends now p).mono (fun _ q more => ⟨fun enough => ?_, fun _ => more⟩)
      fun _ _ more => more
    exact Nat.le_trans more (Nat.le_of_eq (Nat.sub_add_cancel enough).symm)

/-! ### Positions -/

/-- What one vault has in the protocol. -/
structure Position where
  principal : Nat
  /-- Credited and not yet claimed. -/
  accrued : Nat
  claimed : Nat
  indexSnapshot : Nat
deriving DecidableEq

def Position.new (index : Nat) : Position := ⟨0, 0, 0, index⟩

def Position.earnedSince (position : Position) (index : Nat) : Proc YieldError σ Nat := do
  ensure (position.indexSnapshot ≤ index) .overflow
  let scaled ← checked (position.principal * (index - position.indexSnapshot))
  pure (scaled / indexScale)

def Position.settle (position : Position) (index : Nat) : Proc YieldError σ Position := do
  let earned ← position.earnedSince index
  let accrued ← checked (position.accrued + earned)
  pure { position with accrued := accrued, indexSnapshot := index }

/-! ### The manager -/

/-- The manager, with the protocol it pays into. -/
structure YieldManager (P : Type) where
  protocol : P
  positions : Nat → Option Position
  totalPrincipal : Nat
  outstanding : Nat
  unallocated : Nat
  index : Nat

def YieldManager.new (protocol : P) : YieldManager P := ⟨protocol, fun _ => none, 0, 0, 0, 0⟩

abbrev YieldProc (P α : Type) : Type := Proc YieldError (YieldManager P) α

def onProtocol {α : Type} (x : Proc YieldError P α) : YieldProc P α :=
  zoom YieldManager.protocol (fun protocol manager => { manager with protocol := protocol }) x

def insertPosition (id : Nat) (position : Position) : YieldProc P Unit :=
  write fun manager => { manager with
    positions := Function.update manager.positions id (some position) }

variable (protocol : YieldProtocol P)

/-- The surplus over the backing is credited through the index. -/
def harvest (now : Nat) : YieldProc P Nat := do
  let value ← onProtocol (protocol.value now)
  let manager ← read id
  let owed ← checked (manager.totalPrincipal + manager.outstanding)
  let backing ← checked (owed + manager.unallocated)
  let gain := value - backing
  if gain = 0 then
    pure 0
  else if manager.totalPrincipal = 0 then do
    let unallocated ← checked (manager.unallocated + gain)
    write fun manager => { manager with unallocated := unallocated }
    pure 0
  else do
    let scaled ← checked (gain * indexScale)
    let indexDelta := scaled / manager.totalPrincipal
    let credited ← checked (indexDelta * manager.totalPrincipal)
    let distributed := credited / indexScale
    let index ← checked (manager.index + indexDelta)
    write fun manager => { manager with index := index }
    let outstanding ← checked (manager.outstanding + distributed)
    write fun manager => { manager with outstanding := outstanding }
    pure distributed

def deposit (id amount now : Nat) : YieldProc P Unit := do
  ensure (amount ≠ 0) .zeroAmount
  let _ ← harvest protocol now
  onProtocol (protocol.deposit now amount)
  let index ← read YieldManager.index
  let stored ← read (·.positions id)
  let position ← (stored.getD (.new index)).settle index
  let principal ← checked (position.principal + amount)
  let total ← read YieldManager.totalPrincipal
  let totalPrincipal ← checked (total + amount)
  write fun manager => { manager with totalPrincipal := totalPrincipal }
  insertPosition id { position with principal := principal }

def withdraw (id amount now : Nat) : YieldProc P Unit := do
  ensure (amount ≠ 0) .zeroAmount
  let _ ← harvest protocol now
  let index ← read YieldManager.index
  let stored ← read (·.positions id)
  let position ← expect stored .unknownVault
  ensure (amount ≤ position.principal) .insufficientPrincipal
  let position ← position.settle index
  onProtocol (protocol.withdraw now amount)
  let total ← read YieldManager.totalPrincipal
  ensure (amount ≤ total) .overflow
  write fun manager => { manager with totalPrincipal := total - amount }
  insertPosition id { position with principal := position.principal - amount }

/-- The payout leaves the protocol before the outstanding yield is reduced. -/
def claimYield (id amount now : Nat) : YieldProc P Nat := do
  ensure (amount ≠ 0) .zeroAmount
  let _ ← harvest protocol now
  let index ← read YieldManager.index
  let stored ← read (·.positions id)
  let position ← expect stored .unknownVault
  let position ← position.settle index
  ensure (amount ≤ position.accrued) .insufficientYield
  onProtocol (protocol.withdraw now amount)
  let claimed ← checked (position.claimed + amount)
  let outstanding ← read YieldManager.outstanding
  ensure (amount ≤ outstanding) .insufficientYield
  write fun manager => { manager with outstanding := outstanding - amount }
  insertPosition id { position with accrued := position.accrued - amount, claimed := claimed }
  pure amount

def pendingYield (id : Nat) : YieldProc P Nat := do
  let stored ← read (·.positions id)
  let position ← expect stored .unknownVault
  let index ← read YieldManager.index
  let earned ← position.earnedSince index
  checked (position.accrued + earned)

/-! ### Runs -/

inductive YieldCall
  | deposit (id amount now : Nat)
  | withdraw (id amount now : Nat)
  | harvest (now : Nat)
  | claimYield (id amount now : Nat)
deriving DecidableEq

def execYield : YieldCall → YieldProc P Unit
  | .deposit id amount now => deposit protocol id amount now
  | .withdraw id amount now => withdraw protocol id amount now
  | .harvest now => do
    let _ ← harvest protocol now
    pure ()
  | .claimYield id amount now => do
    let _ ← claimYield protocol id amount now
    pure ()

/-- A call of the manager, or a gain of the protocol in between. -/
inductive YieldInput (P : Type)
  | call (call : YieldCall)
  | gains (protocol : P)

abbrev YieldEvent (P : Type) : Type := Event (YieldManager P) (YieldInput P)

variable (worth : P → Nat)

/-- Calls that fail are steps as well; an overflow is not. -/
def yieldStep (s : YieldManager P) (input : YieldInput P) (t : YieldManager P) : Prop :=
  match input with
  | .call call => t = (execYield protocol call).after s ∧
      (execYield protocol call).failure s ≠ some .overflow
  | .gains gained => worth s.protocol ≤ worth gained ∧ t = { s with protocol := gained }

/-- Runs without arithmetic overflow, in which the protocol also gains by itself. -/
abbrev YieldRun (start : P) : List (YieldEvent P) → YieldManager P → Prop :=
  Run (yieldStep protocol worth) (.new start)

end EthosContracts.VaultYield
