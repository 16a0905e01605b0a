/-
**Rules of the shared accessors and checks.**

One rule per helper of `Storage` and `Lifecycle`, so that no later proof unfolds one: the checks as
implications between the condition they check and the rest of the call, the accessors by what they
read or write. `Readonly` facts are given for the helpers whose answer plays no role later.
-/

import EthosContracts.TtlVault.Lifecycle

namespace EthosContracts.TtlVault

open Lib Function

/-! ### The rules -/

theorem blacklist_of_isAddressCompliant {s : State} {address : Address}
    (compliant : isAddressCompliant s address = true) :
    s.compliance.blacklist address = false := by
  simp only [isAddressCompliant, Bool.and_eq_true, Bool.not_eq_true'] at compliant
  exact compliant.1

section Refusals

variable {env : Env} {id : VaultId} {caller : Address} {amount : Int} {reason : String}
  {check : Contract Unit} {s : State} {Q : Unit → State → Prop}

/-- A logged refusal is a refusal: its entry goes with the failed call. -/
theorem auditRefusal_eq_ok_iff {result : Unit × State} :
    auditRefusal env id caller amount reason check s = .ok result ↔ check s = .ok result := by
  unfold auditRefusal
  cases check s with
  | ok => rfl
  | error failure =>
    have never : (do
        recordWithdrawalAudit env id caller amount false reason
        fail failure : Contract Unit).wp s fun _ _ => False := by
      simp only [wp_bind, wp_fail]
      exact .const trivial
    exact iff_of_false (never result.1 result.2) (by simp)

theorem wp_auditRefusal : (auditRefusal env id caller amount reason check).wp s Q ↔ check.wp s Q := by
  simp only [Tx.wp, auditRefusal_eq_ok_iff]

theorem succeeds_auditRefusal :
    (auditRefusal env id caller amount reason check).succeeds s Q ↔ check.succeeds s Q := by
  simp only [Tx.succeeds, auditRefusal_eq_ok_iff]

end Refusals

/-- **What every outcome satisfies**, under one name for `simp`. -/
@[simp] theorem wp_rules {s : State} : (∀ {α β : Type} (x : Contract α) (f : α → Contract β) Q,
      Tx.wp (x >>= f) s Q ↔ Tx.wp x s fun a t => Tx.wp (f a) t Q) ∧
    (∀ {α : Type} (a : α) Q, Tx.wp (pure a : Contract α) s Q ↔ Q a s) ∧
    (∀ {α : Type} (part : State → α) Q, Tx.wp (read part : Contract α) s Q ↔ Q (part s) s) ∧
    (∀ change Q, Tx.wp (write change : Contract Unit) s Q ↔ Q () (change s)) ∧
    (∀ (condition : Prop) [Decidable condition] failure Q,
      Tx.wp (ensure condition failure : Contract Unit) s Q ↔ (condition → Q () s)) ∧
    (∀ {α : Type} (condition : Prop) [Decidable condition] (x y : Contract α) Q,
      Tx.wp (if condition then x else y) s Q ↔
        (condition → Tx.wp x s Q) ∧ (¬ condition → Tx.wp y s Q)) ∧
    (∀ (condition : Prop) [Decidable condition] code Q,
      Tx.wp (require condition code) s Q ↔ (condition → Q () s)) ∧
    (∀ {α : Type} (value : Option α) code Q,
      Tx.wp (found value code) s Q ↔ ∀ a, value = some a → Q a s) ∧
    -- Arithmetic.
    (∀ value Q, Tx.wp (u64 value) s Q ↔ (value ≤ maxU64 → Q value s)) ∧
    (∀ a b Q, Tx.wp (u64Sub a b) s Q ↔ (b ≤ a → Q (a - b) s)) ∧
    (∀ value Q, Tx.wp (i128 value) s Q ↔ (InI128 value → Q value s)) ∧
    (∀ a b Q, Tx.wp (i128Div a b) s Q ↔ (b ≠ 0 → Q (a.tdiv b) s)) ∧
    (∀ a b code Q, Tx.wp (checkedAdd a b code) s Q ↔ (InI128 (a + b) → Q (a + b) s)) ∧
    -- The configuration.
    (∀ env address Q, Tx.wp (requireAuth env address) s Q ↔
      (address ≠ env.self ∧ address ∈ env.signers → Q () s)) ∧
    (∀ Q, Tx.wp assertNotPaused s Q ↔ (s.config.paused = false → Q () s)) ∧
    (∀ Q, Tx.wp loadAdmin s Q ↔ ∀ admin, s.config.admin = some admin → Q admin s) ∧
    (∀ env Q, Tx.wp (requireAdmin env) s Q ↔ ∀ admin, s.config.admin = some admin →
      (admin ≠ env.self ∧ admin ∈ env.signers → Q () s)) ∧
    (∀ Q, Tx.wp requireInitialized s Q ↔ (s.config.admin.isSome → Q () s)) ∧
    (∀ Q, Tx.wp loadToken s Q ↔ ∀ token, s.config.tokenAddress = some token → Q token s) ∧
    (∀ interval Q, Tx.wp (assertIntervalInBounds interval) s Q ↔
      ((∀ bound ∈ s.config.minCheckInInterval, bound ≤ interval) →
        (∀ bound ∈ s.config.maxCheckInInterval, interval ≤ bound) → Q () s)) ∧
    (∀ token Q, Tx.wp (assertTokenWhitelisted token) s Q ↔
      ∀ default, s.config.tokenAddress = some default →
        (isTokenWhitelisted s default token = true → Q () s)) ∧
    (∀ beneficiary Q, Tx.wp (assertBeneficiaryCapacity beneficiary) s Q ↔
      (s.config.beneficiaryVaultLimit = 0 ∨
        (s.index.beneficiaryVaults beneficiary).length < s.config.beneficiaryVaultLimit → Q () s)) ∧
    -- Screening.
    (∀ address Q, Tx.wp (assertNotBlacklisted address) s Q ↔
      (s.compliance.blacklist address = false → Q () s)) ∧
    (∀ address Q, Tx.wp (assertCompliant address) s Q ↔
      (isAddressCompliant s address = true → Q () s)) ∧
    (∀ env address amount Q, Tx.wp (checkKycForAmount env address amount) s Q ↔
      (kycAllows env s address amount = true → Q () s)) ∧
    (∀ env address Q, Tx.wp (requireAmlCompliant env address) s Q ↔
      (checkCompliance env s address = true → Q () s)) ∧
    -- Vaults and payments.
    (∀ id Q, Tx.wp (loadVault id) s Q ↔ ∀ vault, s.vaults id = some vault → Q vault s) ∧
    (∀ env id caller Q, Tx.wp (loadOwned env id caller) s Q ↔
      (caller ≠ env.self ∧ caller ∈ env.signers → ∀ vault, s.vaults id = some vault →
        caller = vault.owner → Q vault s)) ∧
    (∀ env id caller Q, Tx.wp (loadOwnedLocked env id caller) s Q ↔
      (caller ≠ env.self ∧ caller ∈ env.signers → ∀ vault, s.vaults id = some vault →
        caller = vault.owner → vault.status = .locked → Q vault s)) ∧
    (∀ id vault Q, Tx.wp (saveVault id vault) s Q ↔
      Q () { s with vaults := update s.vaults id (some vault) }) ∧
    (∀ env id vault Q, Tx.wp (applyRotation env id vault) s Q ↔ Q { vault with
      beneficiaries := rotatedBeneficiaries env.now
        (s.beneficiaries.rotationSchedule id) vault.beneficiaries } s) ∧
    (∀ env vault Q, Tx.wp (assertNotExpired env vault) s Q ↔
      (vault.deadline ≤ maxU64 → env.now < vault.deadline → Q () s)) ∧
    (∀ env id caller amount success reason Q,
      Tx.wp (recordWithdrawalAudit env id caller amount success reason) s Q ↔
        ∀ vault, s.vaults id = some vault → Q () { s with
          withdrawals.auditLog := update s.withdrawals.auditLog id
            (s.withdrawals.auditLog id ++ [⟨id, caller, amount, env.now, success, reason⟩]) }) ∧
    (∀ env id caller amount reason check Q,
      Tx.wp (auditRefusal env id caller amount reason check) s Q ↔ check.wp s Q) ∧
    (∀ env id caller amount (condition : Prop) [Decidable condition] code reason Q,
      Tx.wp (withdrawalGuard env id caller amount condition code reason) s Q ↔
        (condition → Q () s)) ∧
    (∀ token sender receiver amount Q, Tx.wp (transfer token sender receiver amount) s Q ↔
      ∀ after, s.ledger.transfer token sender receiver amount = some after →
        Q () { s with ledger := after }) ∧
    ∀ env id token payee amount Q, Tx.wp (payOut env id token payee amount) s Q ↔
      ∀ after, s.ledger.transfer token env.self payee amount = some after → Q () { s with
        ledger := after, payouts := s.payouts ++ [⟨id, token, payee, amount⟩] } := by
  have compliant (address : Address) (Q : Prop) :
      (s.compliance.blacklist address = false → isAddressCompliant s address = true → Q) ↔
        (isAddressCompliant s address = true → Q) :=
    ⟨fun holds passes => holds (blacklist_of_isAddressCompliant passes) passes, fun holds _ => holds⟩
  simp only [wp_core, require, found, u64, u64Sub, i128, i128Div, checkedAdd, requireAuth,
    assertNotPaused, loadAdmin, requireAdmin, requireInitialized, loadToken, assertIntervalInBounds,
    assertTokenWhitelisted, assertBeneficiaryCapacity, assertNotBlacklisted, assertCompliant,
    compliant, checkKycForAmount, requireAmlCompliant, loadVault, loadOwned, loadOwnedLocked,
    saveVault, applyRotation, assertNotExpired, recordWithdrawalAudit, wp_auditRefusal,
    withdrawalGuard, transfer, payOut, implies_true, and_self]

/-- **The exact condition of success**, in the same way. -/
@[simp] theorem succeeds_rules {s : State} :
    (∀ {α β : Type} (x : Contract α) (f : α → Contract β) Q,
      Tx.succeeds (x >>= f) s Q ↔ Tx.succeeds x s fun a t => Tx.succeeds (f a) t Q) ∧
    (∀ {α : Type} (a : α) Q, Tx.succeeds (pure a : Contract α) s Q ↔ Q a s) ∧
    (∀ {α : Type} (part : State → α) Q, Tx.succeeds (read part : Contract α) s Q ↔ Q (part s) s) ∧
    (∀ change Q, Tx.succeeds (write change : Contract Unit) s Q ↔ Q () (change s)) ∧
    (∀ (condition : Prop) [Decidable condition] failure Q,
      Tx.succeeds (ensure condition failure : Contract Unit) s Q ↔ condition ∧ Q () s) ∧
    (∀ (condition : Prop) [Decidable condition] code Q,
      Tx.succeeds (require condition code) s Q ↔ condition ∧ Q () s) ∧
    (∀ {α : Type} (value : Option α) code Q,
      Tx.succeeds (found value code) s Q ↔ ∃ a, value = some a ∧ Q a s) ∧
    (∀ value Q, Tx.succeeds (u64 value) s Q ↔ value ≤ maxU64 ∧ Q value s) ∧
    (∀ value Q, Tx.succeeds (i128 value) s Q ↔ InI128 value ∧ Q value s) ∧
    (∀ a b Q, Tx.succeeds (i128Div a b) s Q ↔ b ≠ 0 ∧ Q (a.tdiv b) s) ∧
    (∀ a b code Q, Tx.succeeds (checkedAdd a b code) s Q ↔ InI128 (a + b) ∧ Q (a + b) s) ∧
    (∀ env address Q, Tx.succeeds (requireAuth env address) s Q ↔
      (address ≠ env.self ∧ address ∈ env.signers) ∧ Q () s) ∧
    (∀ Q, Tx.succeeds assertNotPaused s Q ↔ s.config.paused = false ∧ Q () s) ∧
    (∀ Q, Tx.succeeds requireInitialized s Q ↔ s.config.admin.isSome ∧ Q () s) ∧
    (∀ Q, Tx.succeeds loadToken s Q ↔ ∃ token, s.config.tokenAddress = some token ∧ Q token s) ∧
    (∀ address Q, Tx.succeeds (assertNotBlacklisted address) s Q ↔
      s.compliance.blacklist address = false ∧ Q () s) ∧
    (∀ address Q, Tx.succeeds (assertCompliant address) s Q ↔
      isAddressCompliant s address = true ∧ Q () s) ∧
    (∀ env address amount Q, Tx.succeeds (checkKycForAmount env address amount) s Q ↔
      kycAllows env s address amount = true ∧ Q () s) ∧
    (∀ env address Q, Tx.succeeds (requireAmlCompliant env address) s Q ↔
      checkCompliance env s address = true ∧ Q () s) ∧
    (∀ id Q, Tx.succeeds (loadVault id) s Q ↔ ∃ vault, s.vaults id = some vault ∧ Q vault s) ∧
    (∀ id vault Q, Tx.succeeds (saveVault id vault) s Q ↔
      Q () { s with vaults := update s.vaults id (some vault) }) ∧
    (∀ env vault Q, Tx.succeeds (assertNotExpired env vault) s Q ↔
      vault.deadline ≤ maxU64 ∧ env.now < vault.deadline ∧ Q () s) ∧
    (∀ env id caller amount success reason Q,
      Tx.succeeds (recordWithdrawalAudit env id caller amount success reason) s Q ↔
        ∃ vault, s.vaults id = some vault ∧ Q () { s with
          withdrawals.auditLog := update s.withdrawals.auditLog id
            (s.withdrawals.auditLog id ++ [⟨id, caller, amount, env.now, success, reason⟩]) }) ∧
    (∀ env id caller amount reason check Q,
      Tx.succeeds (auditRefusal env id caller amount reason check) s Q ↔ check.succeeds s Q) ∧
    (∀ env id caller amount (condition : Prop) [Decidable condition] code reason Q,
      Tx.succeeds (withdrawalGuard env id caller amount condition code reason) s Q ↔
        condition ∧ Q () s) ∧
    (∀ token sender receiver amount Q, Tx.succeeds (transfer token sender receiver amount) s Q ↔
      ∃ after, s.ledger.transfer token sender receiver amount = some after ∧
        Q () { s with ledger := after }) ∧
    ∀ env id token payee amount Q, Tx.succeeds (payOut env id token payee amount) s Q ↔
      ∃ after, s.ledger.transfer token env.self payee amount = some after ∧ Q () { s with
        ledger := after, payouts := s.payouts ++ [⟨id, token, payee, amount⟩] } := by
  have compliant (address : Address) (Q : Prop) :
      (s.compliance.blacklist address = false ∧ isAddressCompliant s address = true ∧ Q) ↔
        (isAddressCompliant s address = true ∧ Q) :=
    and_iff_right_of_imp fun passes => blacklist_of_isAddressCompliant passes.1
  simp only [succeeds_bind, succeeds_pure, succeeds_read, succeeds_write, succeeds_ensure,
    succeeds_expect, require, found, u64, i128, i128Div, checkedAdd, requireAuth,
    assertNotPaused, requireInitialized, loadToken, assertNotBlacklisted, assertCompliant, compliant,
    checkKycForAmount, requireAmlCompliant, loadVault, saveVault, assertNotExpired,
    recordWithdrawalAudit, succeeds_auditRefusal, withdrawalGuard, transfer, payOut, implies_true,
    and_self]

/-! ### The other checks -/

theorem assertNotPaused_readonly : assertNotPaused.Readonly := fun s => by simp

theorem chooseToken_readonly (requested : Option Address) : (chooseToken requested).Readonly := by
  intro s
  unfold chooseToken
  split <;> simp

theorem assertBelowDepositCap_readonly (vault : Vault) (amount : Int) :
    (assertBelowDepositCap vault amount).Readonly := by
  intro s
  unfold assertBelowDepositCap
  split <;> simp

theorem loadWithdrawalTracker_readonly (env : Env) (id : VaultId) :
    (loadWithdrawalTracker env id).Readonly := by
  intro s
  simp only [loadWithdrawalTracker, wp_core]
  split <;> simp

theorem resetWindow_readonly (now period : Nat) (withdrawn : Int) (resetAt : Nat) :
    (resetWindow now period withdrawn resetAt).Readonly := by
  intro s
  simp [resetWindow]

theorem checkWithdrawalLimits_frame (env : Env) (id : VaultId) (amount : Int) (s : State) :
    (checkWithdrawalLimits env id amount).wp s fun _ t =>
      ∃ tracker, t = { s with
        withdrawals.tracker := update s.withdrawals.tracker id tracker } := by
  simp only [checkWithdrawalLimits, wp_core]
  split
  · rw [wp_bind]
    refine (loadWithdrawalTracker_readonly env id).wp fun tracker => ?_
    simp only [wp_rules]
    refine (resetWindow_readonly _ _ _ _).wp fun daily => ?_
    refine (resetWindow_readonly _ _ _ _).wp fun weekly => ?_
    refine (resetWindow_readonly _ _ _ _).wp fun monthly => ?_
    intros
    exact ⟨_, rfl⟩
  · refine (wp_pure s _ _).mpr ⟨s.withdrawals.tracker id, ?_⟩
    rw [update_eq_self]

/-! ### Rotation -/

theorem latestRotation_mem (now : Nat) (schedule : List BeneficiaryRotationEntry) :
    ∀ applied entry, latestRotation now schedule applied = some entry →
      entry ∈ schedule ∨ applied = some entry := by
  induction schedule with
  | nil => exact fun applied entry found => Or.inr found
  | cons head rest ih =>
    intro applied entry found
    rw [latestRotation] at found
    split_ifs at found
    · rcases ih _ _ found with later | here
      · exact Or.inl (List.mem_cons_of_mem head later)
      · cases here
        exact Or.inl List.mem_cons_self
    · exact (ih _ _ found).imp_left (List.mem_cons_of_mem head)

theorem rotatedBeneficiaries_cases (now : Nat) (stored : Option (List BeneficiaryRotationEntry))
    (current : List BeneficiaryEntry) :
    rotatedBeneficiaries now stored current = current ∨ ∃ schedule ∈ stored, ∃ rotation ∈ schedule,
      rotatedBeneficiaries now stored current = rotation.newBeneficiaries := by
  unfold rotatedBeneficiaries
  split
  · rename_i rotation inForce
    by_cases empty : rotation.newBeneficiaries = []
    · exact .inl (if_pos empty)
    · rcases latestRotation_mem now _ none rotation inForce with member | absent
      · cases stored with
        | none => cases member
        | some schedule => exact .inr ⟨schedule, rfl, rotation, member, if_neg empty⟩
      · cases absent
  · exact .inl rfl

/-! ### Time -/

theorem isExpired_readonly (env : Env) (id : VaultId) : (isExpired env id).Readonly := by
  intro s
  simp only [isExpired, wp_rules]
  intro vault _
  split <;> simp

end EthosContracts.TtlVault
