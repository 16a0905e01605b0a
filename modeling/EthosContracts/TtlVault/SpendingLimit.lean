/-
**The release of a vault with a spending limit.**

A limit caps what one release pays. The first release also marks the vault, and a marked vault is
not released again, so what exceeds the limit stays in it.
-/

import EthosContracts.TtlVault.Call
import EthosContracts.TtlVault.Payments

namespace EthosContracts.TtlVault

open Lib Function List

/-! ### The payment of a release -/

def releasePayment (env : Env) (id : VaultId) (vault : Vault) (mode : ReleaseTrigger) :
    Contract Unit := do
  let scaled ← i128 (vault.releaseAmount * vault.burnPercentage)
  let netAmount ← i128 (vault.releaseAmount - scaled.tdiv 10000)
  if vault.beneficiaries.isEmpty then do
    requireAmlCompliant env vault.beneficiary
    payOut env id vault.tokenAddress vault.beneficiary vault.releaseAmount
  else distributeReleaseAmount env id vault netAmount mode

section Release

variable (env : Env) (id : VaultId)

/-- Every condition of a release on expiry is met, but for the marker of an earlier release. -/
structure ReleaseDue (s : State) (v : Vault) : Prop where
  running : s.config.paused = false
  stored : s.vaults id = some v
  locked : v.status = .locked
  funded : 0 < v.balance
  met : (anyConditionMet env id .expiry
    ((s.beneficiaries.releaseConditions id).getD [v.releaseCondition])).succeeds s
      fun met _ => met = true
  expired : (isExpired env id).succeeds s fun expired _ => expired = true
  graceOver : (assertGracePeriodOver env id v).succeeds s fun _ _ => True
  accepted : (assertBeneficiaryAccepts id v v.balance).succeeds s fun _ _ => True
  voted : (assertReleaseVoted env id).succeeds s fun _ _ => True
  inTime : acceptanceMissed env (s.beneficiaries.conditionalAcceptance id) = false
  unvested : hasVesting s id (rotatedVault env id s v) = false
  payable : (releasePayment env id (rotatedVault env id s v) .expiry).succeeds
    (s.attempted id) fun _ _ => True

variable {env id} {s : State} {v : Vault}

theorem ReleaseDue.succeeds (due : ReleaseDue env id s v)
    (unmarked : s.beneficiaries.releaseAttempted id = false) {Q : Unit → State → Prop}
    (pay : (releaseNow env id (rotatedVault env id s v) .expiry).succeeds
      (s.attempted id) Q) : (triggerRelease env id).succeeds s Q := by
  unfold triggerRelease triggerReleaseInternal
  simp only [succeeds_rules]
  refine ⟨due.running, v, due.stored, ⟨unmarked, due.locked⟩, due.funded.ne', ?_⟩
  refine (anyConditionMet_readonly env id _ _).succeeds due.met fun _ met => ⟨met, ?_⟩
  refine (isExpired_readonly env id).succeeds due.expired fun _ expired => ⟨expired, ?_⟩
  refine (assertGracePeriodOver_readonly env id v).succeeds due.graceOver fun _ _ => ?_
  have unvetoed : (assertNotVetoed env id).succeeds s fun _ _ => True := by
    simp only [assertNotVetoed, succeeds_rules]
    exact (isExpired_readonly env id).succeeds due.expired fun _ expired =>
      ⟨Or.inl expired, trivial⟩
  refine (assertNotVetoed_readonly env id).succeeds unvetoed fun _ _ => ?_
  refine (assertBeneficiaryAccepts_readonly id v _).succeeds due.accepted fun _ _ => ?_
  refine (assertReleaseVoted_readonly env id).succeeds due.voted fun _ _ => ?_
  simp only [due.inTime, applyRotation, succeeds_bind, succeeds_read, succeeds_pure,
    markReleaseAttempted, succeeds_write, succeeds_ite]
  refine ⟨fun missed => absurd missed Bool.false_ne_true, fun _ => ⟨fun vesting => ?_, fun _ => pay⟩⟩
  exact absurd (due.unvested.symm.trans vesting) Bool.false_ne_true

/-! ### The first release and the others -/

variable {limit : Int}

end Release

/-! ### A balance above the limit -/

end EthosContracts.TtlVault
