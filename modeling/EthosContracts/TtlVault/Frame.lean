/-
**What the record keeping calls leave alone.**
-/

import EthosContracts.TtlVault.Call
import EthosContracts.TtlVault.Rules

namespace EthosContracts.TtlVault

open Lib

/-- What the results about vaults, money and authority speak of: the vaults, the ledger and the
payments, who is registered to check in or to recover, and what is staked, forfeited or rotated. -/
structure Core where
  vaults : VaultId → Option Vault
  vaultCount : Nat
  ledger : Ledger Address Address
  payouts : List Payout
  checkInDelegates : VaultId → List Address
  passkeyDelegation : VaultId → Hash → Option PasskeyDelegation
  recoveryCodeHash : VaultId → Option Hash
  staking : VaultId → Option TokenStaking
  forfeiture : VaultId → Option VestingForfeitureConfig
  rotationSchedule : VaultId → Option (List BeneficiaryRotationEntry)

def State.core (s : State) : Core where
  vaults := s.vaults
  vaultCount := s.vaultCount
  ledger := s.ledger
  payouts := s.payouts
  checkInDelegates := s.checkIns.checkInDelegates
  passkeyDelegation := s.checkIns.passkeyDelegation
  recoveryCodeHash := s.checkIns.recoveryCodeHash
  staking := s.vesting.staking
  forfeiture := s.vesting.forfeiture
  rotationSchedule := s.beneficiaries.rotationSchedule

/-! ### The storage of the control of vaults -/

/-- The storage of the passkeys, apart from the vaults. -/
structure KeyBooks where
  vaultPasskeys : VaultId → List PasskeyHash
  compromisedPasskeys : VaultId → List Hash
  passkeyEscrow : VaultId → Hash → Option PasskeyEscrowRecord
  passkeyExpiry : VaultId → Hash → Option Nat
  passkeyRecoveryRequest : VaultId → Option PasskeyRecoveryRequest
  recoveryContacts : VaultId → Option (List Address)
  recoveryCodeHash : VaultId → Option Hash

def State.keyBooks (s : State) : KeyBooks where
  vaultPasskeys := s.checkIns.vaultPasskeys
  compromisedPasskeys := s.checkIns.compromisedPasskeys
  passkeyEscrow := s.checkIns.passkeyEscrow
  passkeyExpiry := s.checkIns.passkeyExpiry
  passkeyRecoveryRequest := s.checkIns.passkeyRecoveryRequest
  recoveryContacts := s.checkIns.recoveryContacts
  recoveryCodeHash := s.checkIns.recoveryCodeHash

/-- The control of vaults: indexes, requests, signers, passkeys, hibernation. -/
structure Books where
  vaultCount : Nat
  ownerVaults : Address → List VaultId
  beneficiaryVaults : Address → List VaultId
  vaultDuplicate : Address → Address → Nat → Option VaultId
  pendingOwnership : VaultId → Option OwnershipTransferRequest
  pendingBeneficiaryUpdate : VaultId → Option PendingBeneficiaryUpdate
  rotationSchedule : VaultId → Option (List BeneficiaryRotationEntry)
  multiSig : MultiSigState
  keyBooks : KeyBooks
  hibernation : VaultId → Option HibernationEntry

def State.books (s : State) : Books where
  vaultCount := s.vaultCount
  ownerVaults := s.index.ownerVaults
  beneficiaryVaults := s.index.beneficiaryVaults
  vaultDuplicate := s.index.vaultDuplicate
  pendingOwnership := s.beneficiaries.pendingOwnership
  pendingBeneficiaryUpdate := s.beneficiaries.pendingBeneficiaryUpdate
  rotationSchedule := s.beneficiaries.rotationSchedule
  multiSig := s.multiSig
  keyBooks := s.keyBooks
  hibernation := s.checkIns.hibernation

/-- The calls about one vault that write this storage. -/
def RecordCall.controls : RecordCall → Bool
  | .updateBeneficiary .. | .initiateOwnershipTransfer .. | .cancelOwnershipTransfer ..
  | .expireOwnershipTransfer .. | .addPasskey .. | .removePasskey .. | .bindPasskeyBiometric ..
  | .unbindPasskeyBiometric .. | .reportPasskeyCompromise .. | .clearPasskeyCompromise ..
  | .extendPasskeyExpiry .. | .escrowPasskey .. | .releaseEscrowPasskey ..
  | .cancelPasskeyEscrow .. | .initiatePasskeyRecovery .. | .approvePasskeyRecovery ..
  | .enterHibernation .. | .configureMultisig .. | .removeMultisig .. | .removeMultisigSigner ..
  | .proposeMultisig .. | .approveMultisig .. | .rejectMultisig .. | .vetoProposal .. => true
  | _ => false

/-! ### Storage that few calls write -/

/-- Schedules in installments and their pending claims. -/
structure ClaimBooks where
  schedule : VaultId → Nat → Option VestingSchedule
  scheduleCount : VaultId → Nat
  pendingClaim : VaultId → Nat → Option VestingPendingClaim

def State.claimBooks (s : State) : ClaimBooks where
  schedule := s.vesting.schedule
  scheduleCount := s.vesting.scheduleCount
  pendingClaim := s.vesting.pendingClaim

/-- The calls that write schedules or pending claims. -/
def Call.vests : Call → Bool
  | .record (.setVestingSchedule ..) | .record (.initiateVestingClaim ..)
  | .record (.reverseVestingClaim ..) | .cancelVestingSchedule .. | .claimVestedInstallment ..
  | .claimCatchupVesting .. | .claimWithBonus .. | .finalizeVestingClaim .. | .clawbackUnvested ..
    => true
  | _ => false

def Call.administers : Call → Bool
  | .admin _ => true
  | _ => false

def Call.approves : Call → Bool
  | .record (.requestWithdrawalApproval ..) | .record (.approveWithdrawal ..)
  | .executeApprovedWithdrawal .. => true
  | _ => false

def Call.escrows : Call → Bool
  | .record (.createWithdrawalEscrow ..) | .verifyWithdrawalEscrow .. => true
  | _ => false

def Call.schedules : Call → Bool
  | .record (.setWithdrawalSchedule ..) | .executeScheduledWithdrawal .. => true
  | _ => false

def Call.votes : Call → Bool
  | .record (.setReleaseVoteThreshold ..) | .record (.castReleaseVote ..) => true
  | _ => false

/-- The schedules in installments, the screening data, the withdrawals that wait for a later call
and the votes, each for the calls that are not about it. -/
structure SideBooks where
  claims : Option ClaimBooks
  compliance : Option ComplianceState
  approvals : Option ((VaultId → Option WithdrawalApprovalRequest) × (VaultId → Option (List Address)))
  escrow : Option (VaultId → Option WithdrawalEscrow)
  schedule : Option (VaultId → Option (List WithdrawalScheduleEntry))
  votes : Option ((VaultId → Option Nat) × (VaultId → List ReleaseVoteEntry))

def State.sideBooks (s : State) (call : Call) : SideBooks where
  claims := if call.vests then none else some s.claimBooks
  compliance := if call.administers then none else some s.compliance
  approvals := if call.approves then none else
    some (s.withdrawals.approvalRequest, s.withdrawals.approvers)
  escrow := if call.escrows then none else some s.withdrawals.escrow
  schedule := if call.schedules then none else some s.withdrawals.schedule
  votes := if call.votes then none else
    some (s.beneficiaries.releaseVoteThreshold, s.beneficiaries.releaseVotes)

/-! ### Helpers that only read -/

theorem sumScheduled_readonly (schedules : List VestingSchedule) :
    ∀ total, (sumScheduled schedules total).Readonly := by
  induction schedules with
  | nil =>
    intro total s
    simp only [sumScheduled, wp_pure]
  | cons schedule rest ih =>
    intro total s
    simp only [sumScheduled, checkedAdd, wp_rules]
    exact fun _ => ih _ s

theorem updateMilestones_readonly {α : Type} (change : MilestoneEntry → α → MilestoneEntry)
    (changes : List (Nat × α)) :
    ∀ milestones, (updateMilestones change changes milestones).Readonly := by
  induction changes with
  | nil =>
    intro milestones s
    simp only [updateMilestones, wp_pure]
  | cons head rest ih =>
    intro milestones s
    simp only [updateMilestones, wp_rules]
    exact fun _ _ _ => ih _ s

/-! ### Administration -/

theorem syncActivePolicy_frame (env : Env) (s : State) : (syncActivePolicy env).wp s fun _ t =>
      ∃ config compliance, t = { s with config := config, compliance := compliance } := by
  simp only [syncActivePolicy, setCompliance, wp_rules]
  split
  · exact (wp_pure s _ _).mpr ⟨s.config, s.compliance, rfl⟩
  · simp only [wp_rules]
    exact ⟨fun _ => ⟨s.config, s.compliance, rfl⟩, fun _ _ _ => ⟨_, _, rfl⟩⟩

theorem execAdmin_frame (env : Env) (call : AdminCall) (s : State) :
    (execAdmin env call).wp s fun _ t =>
      ∃ config compliance, t = { s with config := config, compliance := compliance } := by
  cases call with
  | publishCompliancePolicy =>
    simp only [execAdmin.eq_def, publishCompliancePolicy, appendPolicy, setCompliance, wp_rules]
    intros
    exact syncActivePolicy_frame env _
  | syncCompliancePolicy => exact syncActivePolicy_frame env s
  | verifyKyc =>
    simp only [execAdmin.eq_def, verifyKyc, requireKycProvider, setCompliance, wp_rules]
    intros
    exact ⟨fun _ => ⟨s.config, s.compliance, rfl⟩, fun _ => ⟨_, _, rfl⟩⟩
  | _ =>
    simp only [execAdmin.eq_def, wp_rules, pause, unpause, setConfig, setCompliance,
      setMinCheckInInterval, setMaxCheckInInterval, setMaxTtlSeconds, setTtlDecayRate,
      setMinCheckinCooldown, setOwnerVaultLimit, setBeneficiaryVaultLimit, proposeProtocolConfig,
      applyProtocolConfig, whitelistToken, removeTokenWhitelist, registerWrappedToken,
      unregisterWrappedToken, proposeAdmin, acceptAdmin, setAmlOracle, setAmlReporter,
      flagAmlAddress, unflagAmlAddress, blacklistAddress, removeFromBlacklist, addToAllowlist,
      removeFromAllowlist, setAllowlistEnforced, setKycProvider, revokeKyc, adminRevokeKyc,
      setKycHighValueThreshold, setReportingThresholds, requireCallerAdmin, requireAdminOrReporter,
      requireKycProvider, revokeKycRecord, recordLiveChange, appendPolicy]
    intros
    exact ⟨_, _, rfl⟩

/-! ### Records about one vault -/

/-- The calls of `RecordCall` keep the core, and the rest unless they are about it. -/
theorem execRecord_frame (env : Env) (call : RecordCall) (s : State) :
    (execRecord env call).wp s fun _ t =>
      t.core = s.core ∧ (call.controls = false → t.books = s.books) ∧
        t.sideBooks (.record call) = s.sideBooks (.record call) := by
  cases call with
  | vetoReleaseCondition id caller =>
    simp only [execRecord.eq_def, vetoReleaseCondition, loadAsBeneficiary, setReleaseConditionVeto,
      wp_rules]
    intros
    exact (isExpired_readonly env id).wp fun _ _ => ⟨rfl, fun _ => rfl, rfl⟩
  | setVestingSchedule =>
    simp only [execRecord.eq_def, setVestingSchedule, setSchedule, wp_rules]
    intros
    exact (sumScheduled_readonly _ _).wp fun _ _ _ => ⟨rfl, fun _ => rfl, rfl⟩
  | adjustMilestoneTargets =>
    simp only [execRecord.eq_def, adjustMilestoneTargets, loadMilestones, setMilestones, wp_rules]
    intros
    exact (updateMilestones_readonly _ _ _).wp fun _ => ⟨rfl, fun _ => rfl, rfl⟩
  | emergencyFulfillMilestones =>
    simp only [execRecord.eq_def, emergencyFulfillMilestones, loadMilestones, setMilestones, wp_rules]
    intros
    exact (updateMilestones_readonly _ _ _).wp fun _ _ => ⟨rfl, fun _ => rfl, rfl⟩
  | reportMilestoneProgress =>
    simp only [execRecord.eq_def, reportMilestoneProgress, loadMilestones, setMilestones, wp_rules]
    intros
    exact (updateMilestones_readonly _ _ _).wp fun _ =>
      ⟨fun _ => ⟨rfl, fun _ => rfl, rfl⟩, fun _ _ _ => ⟨rfl, fun _ => rfl, rfl⟩⟩
  | reportPasskeyCompromise =>
    simp only [execRecord.eq_def, reportPasskeyCompromise, setCompromisedPasskeys, wp_rules]
    intros
    refine ⟨fun _ => ⟨trivial, fun other => ?_, trivial⟩, fun _ => ⟨rfl, fun other => ?_, rfl⟩⟩
    · cases other
    · cases other
  | approvePasskeyRecovery id caller =>
    simp only [execRecord.eq_def, approvePasskeyRecovery, setVaultPasskeys, setPasskeyRecoveryRequest,
      wp_rules]
    intros
    refine ⟨fun _ => ⟨rfl, fun other => ?_, rfl⟩, fun _ => ⟨rfl, fun other => ?_, rfl⟩⟩
    · cases other
    · cases other
  | setRecoveryContact =>
    simp only [execRecord.eq_def, setRecoveryContact, wp_rules]
    intros
    exact ⟨trivial, fun _ => trivial, trivial⟩
  | initiateVestingClaim =>
    simp only [execRecord.eq_def, initiateVestingClaim, loadClaimable, unlockedInstallments, baseAmount,
      setSchedule, setPendingClaim, wp_rules]
    intros
    refine ⟨fun _ => ?_, fun _ => ?_⟩
    · intros
      exact ⟨rfl, fun _ => rfl, rfl⟩
    · intros
      exact ⟨rfl, fun _ => rfl, rfl⟩
  | _ =>
    simp only [execRecord.eq_def, wp_rules, createWithdrawalEscrow, requestWithdrawalApproval,
      approveWithdrawal, setApprovalRequest, setWithdrawalLimits, addWhitelistAddress,
      removeWhitelistAddress, setBeneficiaryReleaseTriggers, setBeneficiaryTierThreshold,
      loadListed, revokeVetoReleaseCondition, setReleaseConditionVeto, acceptBeneficiaryRole,
      setBeneficiaryStatus, loadAsBeneficiary, updateBeneficiary, commitBeneficiary,
      setReleaseConditions, initiateOwnershipTransfer, cancelOwnershipTransfer,
      expireOwnershipTransfer, setPendingOwnership, addPasskey, removePasskey, bindPasskeyBiometric,
      unbindPasskeyBiometric, setPasskeyBiometric, setVaultPasskeys, clearPasskeyCompromise,
      setCompromisedPasskeys, extendPasskeyExpiry, escrowPasskey, releaseEscrowPasskey,
      cancelPasskeyEscrow, setPasskeyEscrow, initiatePasskeyRecovery, setPasskeyRecoveryRequest,
      generateBackupCodes, enterHibernation, setHibernation, setWithdrawalSchedule,
      acceptWithConditions, approveConditionalAcceptance, setAcceptanceDeadline,
      setConditionalAcceptance, acceptWithThreshold, submitProofOfLife, loadAsAnyBeneficiary,
      setReleaseVoteThreshold, castReleaseVote, configureMultisig, removeMultisig,
      removeMultisigSigner, setMultiSigConfig, proposeMultisig, approveMultisig, rejectMultisig,
      vetoProposal, setProposal, closeProposal, loadProposal, loadAsSigner, setVestingPenalty,
      setVestingRollover, setVestingAcceleration, accelerateVesting, setVestingCatchup,
      setVestingBonus, reverseVestingClaim, setSchedule, setPendingClaim, setMilestoneVesting,
      pauseMilestoneVesting, resumeMilestoneVesting, setMilestonesPaused, setMilestones,
      loadMilestones, setVestingStagger, setBeneficiaryVesting, setBeneficiarySchedule,
      setYieldDistribution, setYieldConfig]
    intros
    -- a call about the control of vaults has nothing to show of that part
    refine ⟨rfl, fun other => ?_, rfl⟩
    first
      | rfl
      | cases other

end EthosContracts.TtlVault
