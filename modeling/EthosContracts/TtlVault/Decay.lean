/-
**Decay shortens the time that is left** (`withdrawals.rs`, `views.rs`).

`apply_ttl_decay` computes a new deadline from now and writes the check-in that would give it;
`accelerate_ttl_decay` moves the last check-in back, to zero at the earliest.
-/

import EthosContracts.TtlVault.ExpiryViews

namespace EthosContracts.TtlVault

open Lib Function

/-- The deadline is no later than that of `v`, and the seconds left are what the view says, with
zero for nothing. -/
def Reported (env : Env) (id : VaultId) (v : Vault) (remaining : Nat) (t : State) : Prop :=
  ∃ w, t.vaults id = some w ∧ w.deadline ≤ v.deadline ∧
    ∃ left, getTtlRemaining env id t = .ok (left, t) ∧ left.getD 0 = remaining

/-- **The call shortens the time left and reports it as it is**, and never fails in its arithmetic.
-/
def Decays (env : Env) (id : VaultId) (v : Vault) (s : State) (call : Contract Nat) : Prop :=
  call.meets s (Reported env id v) (· ≠ .overflow)

/-- `accelerate_ttl_decay` with the seconds left that it publishes. -/
def publishedAcceleration (env : Env) (id : VaultId) (v : Vault) (caller : Address)
    (seconds : Nat) : Contract Nat := do
  accelerateTtlDecay env id caller seconds
  pure (v.deadline - env.now - seconds)

/-- The arithmetic of the decay does not overflow. -/
def DecayFits (env : Env) (v : Vault) (rate : Nat) : Prop :=
  v.deadline ≤ maxU64 ∧ (rate ≠ 0 → v.lastCheckIn + 2592000 ≤ maxU64 ∧
    (v.lastCheckIn + 2592000 ≤ env.now → rate ≤ 10000 ∧ env.now ≤ v.deadline ∧
      (v.deadline - env.now) * (10000 - rate) ≤ maxU64 ∧
      v.checkInInterval ≤ env.now + (v.deadline - env.now) * (10000 - rate) / 10000))

/-- No documented error applies before the deadline is computed. -/
def Accelerates (env : Env) (s : State) (v : Vault) (caller : Address) (seconds : Nat) : Prop :=
  s.config.paused = false ∧ (caller ≠ env.self ∧ caller ∈ env.signers) ∧
    (seconds ≠ 0 ∧ seconds ≤ 2592000) ∧ caller = v.owner

section Decay

variable {env : Env} {s : State} {id : VaultId} {v : Vault}

theorem getTtlRemaining_meets (found : s.vaults id = some v) (Q : Option Nat → State → Prop)
    (E : Failure → Prop) : (getTtlRemaining env id).meets s Q E ↔
      (v.deadline ≤ maxU64 → Q (if v.deadline ≤ env.now then none else some (v.deadline - env.now)) s) ∧
        (maxU64 < v.deadline → E .overflow) := by
  simp only [getTtlRemaining, meets_bind, meets_read, found, u64, meets_ensure, meets_pure, not_le]
  split <;> rfl

theorem reported_iff {t : State} {w : Vault} (stored : t.vaults id = some w) (remaining : Nat) :
    Reported env id v remaining t ↔
      w.deadline ≤ v.deadline ∧ w.deadline ≤ maxU64 ∧ w.deadline - env.now = remaining := by
  have answer : ∀ left, getTtlRemaining env id t = .ok (left, t) ↔ w.deadline ≤ maxU64 ∧
      (if w.deadline ≤ env.now then none else some (w.deadline - env.now)) = left := by
    intro left
    rw [Tx.eq_ok_iff]
    simp only [getTtlRemaining, succeeds_rules, stored]
    split <;> simp
  simp only [Reported, stored, Option.some.injEq, exists_eq_left', answer, and_assoc, exists_and_left]
  split
  · rename_i reached
    rw [Nat.sub_eq_zero_of_le reached]
    rfl
  · rfl

theorem reported_saved (w : Vault) (remaining : Nat) :
    Reported env id v remaining { s with vaults := update s.vaults id (some w) } ↔
      w.deadline ≤ v.deadline ∧ w.deadline ≤ maxU64 ∧ w.deadline - env.now = remaining :=
  reported_iff (update_self ..) remaining

theorem applyTtlDecay_iff (found : s.vaults id = some v) (locked : v.status = .locked) :
    Decays env id v s (applyTtlDecay env id) ↔
      (v.owner ≠ env.self ∧ v.owner ∈ env.signers →
        DecayFits env v (s.config.ttlDecayRate.getD 0)) := by
  have left : (if v.deadline ≤ env.now then none else some (v.deadline - env.now)).getD 0 =
      v.deadline - env.now := by
    split
    · exact (Nat.sub_eq_zero_of_le ‹_›).symm
    · rfl
  have shrinks : ∀ rate, (v.deadline - env.now) * (10000 - rate) / 10000 ≤ v.deadline - env.now := by
    intro rate
    refine Nat.div_le_of_le_mul ?_
    rw [Nat.mul_comm 10000]
    exact Nat.mul_le_mul_left _ (Nat.sub_le ..)
  simp only [Decays, applyTtlDecay, loadVault, TtlVault.found, require, requireAuth, u64, u64Sub,
    saveVault, meets_bind, meets_read, meets_ensure, meets_expect, meets_write, meets_pure, meets_ite,
    getTtlRemaining_meets found, reported_iff found, reported_saved, found, left, locked,
    Option.some.injEq, forall_eq', reduceCtorEq, ne_eq, not_true_eq_false, not_false_eq_true,
    implies_true, true_imp_iff, imp_false, and_true, not_lt, not_le]
  refine imp_congr_right fun _ => ?_
  have shrinks := shrinks (s.config.ttlDecayRate.getD 0)
  unfold DecayFits
  unfold Vault.deadline at *
  generalize s.config.ttlDecayRate.getD 0 = rate at *
  generalize (v.lastCheckIn + v.checkInInterval - env.now) * (10000 - rate) = scaled at *
  dsimp only
  omega

theorem accelerateTtlDecay_iff (found : s.vaults id = some v) (locked : v.status = .locked)
    (caller : Address) (seconds : Nat) :
    Decays env id v s (publishedAcceleration env id v caller seconds) ↔
      (Accelerates env s v caller seconds → v.deadline ≤ maxU64 ∧
        (seconds < v.deadline - env.now → seconds ≤ v.lastCheckIn)) := by
  simp only [Decays, publishedAcceleration, accelerateTtlDecay, assertNotPaused, loadOwnedLocked,
    loadOwned, loadVault, TtlVault.found, require, requireAuth, u64, saveVault, meets_bind,
    meets_read, meets_ensure, meets_expect, meets_write, meets_pure, reported_saved, found, locked,
    Option.some.injEq, forall_eq', reduceCtorEq, ne_eq, not_true_eq_false, not_false_eq_true,
    implies_true, true_imp_iff, imp_false, and_true, not_lt, not_le]
  constructor
  · intro shortens accelerates
    obtain ⟨running, signed, inRange, owner⟩ := accelerates
    have shorter := shortens running signed inRange signed owner
    unfold Vault.deadline at *
    dsimp only at shorter
    omega
  · intro fits running signed inRange _ owner
    have room := fits ⟨running, signed, inRange, owner⟩
    unfold Vault.deadline at *
    dsimp only
    omega

/-- **When decay only shortens.** For every locked vault, exactly if the numbers fit and the decay
finds a deadline that is not over, and an acceleration does not go back beyond time zero. -/
theorem decayShortens_iff (found : s.vaults id = some v) (locked : v.status = .locked) :
    (Decays env id v s (applyTtlDecay env id) ∧ ∀ caller seconds,
        Decays env id v s (publishedAcceleration env id v caller seconds)) ↔
      (v.owner ≠ env.self ∧ v.owner ∈ env.signers →
        DecayFits env v (s.config.ttlDecayRate.getD 0)) ∧ ∀ caller seconds,
          Accelerates env s v caller seconds → v.deadline ≤ maxU64 ∧
            (seconds < v.deadline - env.now → seconds ≤ v.lastCheckIn) :=
  and_congr (applyTtlDecay_iff found locked) (forall₂_congr (accelerateTtlDecay_iff found locked))

end Decay

def decayingVault : Scenario :=
  [(1, ⟨2⟩, .admin (.setTtlDecayRate 1000)), (10000000, ⟨3⟩, .createVault ⟨3⟩ ⟨4⟩ 5000000 none)]

/-- Before its deadline the time left shrinks. -/
theorem decayShortens_decayingVault :
    let s := (played decayingVault).2
    let v := newVault ⟨3⟩ ⟨4⟩ ⟨1⟩ 5000000 10000000
    Decays (plainEnv 13000000 [⟨3⟩]) 1 v s (applyTtlDecay (plainEnv 13000000 [⟨3⟩]) 1) ∧
      ∀ caller seconds, Decays (plainEnv 13000000 [⟨3⟩]) 1 v s
        (publishedAcceleration (plainEnv 13000000 [⟨3⟩]) 1 v caller seconds) := by
  refine (decayShortens_iff rfl rfl).mpr ⟨fun _ => ?_, fun caller seconds accelerates => ?_⟩
  · unfold DecayFits
    decide +kernel
  · obtain ⟨-, -, ⟨-, few⟩, -⟩ := accelerates
    exact ⟨by decide, fun _ => few.trans (by decide)⟩

/-- After its deadline the decay moves it to the present. -/
theorem expired_decay_later :
    let s := (played decayingVault).2
    let v := newVault ⟨3⟩ ⟨4⟩ ⟨1⟩ 5000000 10000000
    s.vaults 1 = some v ∧ v.deadline = 15000000 ∧
      (applyTtlDecay (plainEnv 20000000 [⟨3⟩]) 1).succeeds s
        (fun _ t => (t.vaults 1).map (·.deadline) = some 20000000) ∧
      ¬ Decays (plainEnv 20000000 [⟨3⟩]) 1 v s (applyTtlDecay (plainEnv 20000000 [⟨3⟩]) 1) := by
  refine ⟨rfl, rfl, by decide +kernel, fun shortens => ?_⟩
  have fits := (applyTtlDecay_iff rfl rfl).mp shortens (by decide)
  unfold DecayFits at fits
  revert fits
  decide +kernel

end EthosContracts.TtlVault
