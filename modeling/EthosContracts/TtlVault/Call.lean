/-
**The public calls of the contract and the runs they form.**
-/

import EthosContracts.Lib.Replay
import EthosContracts.TtlVault.Admin
import EthosContracts.TtlVault.CheckIns
import EthosContracts.TtlVault.MultiSig
import EthosContracts.TtlVault.Passkeys
import EthosContracts.TtlVault.VestingPlans
import EthosContracts.TtlVault.Workflows

namespace EthosContracts.TtlVault

open Lib

variable (start : State) (inputs : List Invocation) (input : Invocation)

/-! ### Calls -/

/-- The calls of the administrator and of the screening parties. -/
inductive AdminCall
  | pause (reason : Bytes)
  | unpause
  | setMinCheckInInterval (minInterval : Nat)
  | setMaxCheckInInterval (maxInterval : Nat)
  | setMaxTtlSeconds (maxTtl : Nat)
  | setTtlDecayRate (decayRate : Nat)
  | setMinCheckinCooldown (cooldownSeconds : Nat)
  | setOwnerVaultLimit (limit : Nat)
  | setBeneficiaryVaultLimit (limit : Nat)
  | proposeProtocolConfig (config : ProtocolConfig)
  | applyProtocolConfig
  | whitelistToken (token : Address)
  | removeTokenWhitelist (token : Address)
  | registerWrappedToken (wrapped canonical : Address)
  | unregisterWrappedToken (wrapped : Address)
  | proposeAdmin (newAdmin : Address)
  | acceptAdmin
  | setAmlOracle (admin : Address) (oracle : Option Address)
  | setAmlReporter (admin : Address) (reporter : Option Address)
  | flagAmlAddress (caller address : Address)
  | unflagAmlAddress (caller address : Address)
  | publishCompliancePolicy (kycHighValueThreshold : Int) (allowlistEnforced : Bool)
      (reportingThresholds : Option ThresholdConfig) (effectiveFrom : Nat)
  | syncCompliancePolicy
  | blacklistAddress (address : Address) (reason : String)
  | removeFromBlacklist (address : Address)
  | addToAllowlist (address : Address)
  | removeFromAllowlist (address : Address)
  | setAllowlistEnforced (enforced : Bool)
  | setKycProvider (provider : Address)
  | verifyKyc (address : Address) (data : KycData)
  | revokeKyc (address : Address)
  | adminRevokeKyc (address : Address)
  | setKycHighValueThreshold (amount : Int)
  | setReportingThresholds (config : ThresholdConfig)

def execAdmin (env : Env) : AdminCall → Contract Unit
  | .pause a => pause env a
  | .unpause => unpause env
  | .setMinCheckInInterval a => setMinCheckInInterval env a
  | .setMaxCheckInInterval a => setMaxCheckInInterval env a
  | .setMaxTtlSeconds a => setMaxTtlSeconds env a
  | .setTtlDecayRate a => setTtlDecayRate env a
  | .setMinCheckinCooldown a => setMinCheckinCooldown env a
  | .setOwnerVaultLimit a => setOwnerVaultLimit env a
  | .setBeneficiaryVaultLimit a => setBeneficiaryVaultLimit env a
  | .proposeProtocolConfig a => proposeProtocolConfig env a
  | .applyProtocolConfig => applyProtocolConfig env
  | .whitelistToken token => whitelistToken env token
  | .removeTokenWhitelist token => removeTokenWhitelist env token
  | .registerWrappedToken a b => registerWrappedToken env a b
  | .unregisterWrappedToken a => unregisterWrappedToken env a
  | .proposeAdmin a => proposeAdmin env a
  | .acceptAdmin => acceptAdmin env
  | .setAmlOracle a b => setAmlOracle env a b
  | .setAmlReporter a b => setAmlReporter env a b
  | .flagAmlAddress caller a => flagAmlAddress env caller a
  | .unflagAmlAddress caller a => unflagAmlAddress env caller a
  | .publishCompliancePolicy kycHighValueThreshold allowlistEnforced reportingThresholds
      effectiveFrom =>
    publishCompliancePolicy env kycHighValueThreshold allowlistEnforced reportingThresholds
      effectiveFrom
  | .syncCompliancePolicy => syncCompliancePolicy env
  | .blacklistAddress a b => blacklistAddress env a b
  | .removeFromBlacklist a => removeFromBlacklist env a
  | .addToAllowlist a => addToAllowlist env a
  | .removeFromAllowlist a => removeFromAllowlist env a
  | .setAllowlistEnforced a => setAllowlistEnforced env a
  | .setKycProvider a => setKycProvider env a
  | .verifyKyc a b => verifyKyc env a b
  | .revokeKyc a => revokeKyc env a
  | .adminRevokeKyc a => adminRevokeKyc env a
  | .setKycHighValueThreshold amount => setKycHighValueThreshold env amount
  | .setReportingThresholds a => setReportingThresholds env a

/-- The calls about one vault that only keep records. -/
inductive RecordCall
  -- withdrawals
  | createWithdrawalEscrow (id : VaultId) (amount : Int) (beneficiary caller : Address)
  | requestWithdrawalApproval (id : VaultId) (caller : Address) (amount : Int)
      (approvers : List Address) (requiredApprovals : Nat)
  | approveWithdrawal (id : VaultId) (caller : Address)
  | setWithdrawalLimits (id : VaultId) (caller : Address)
      (dailyLimit weeklyLimit monthlyLimit : Int)
  | addWhitelistAddress (id : VaultId) (caller address : Address) (label : String)
  | removeWhitelistAddress (id : VaultId) (caller address : Address)
  -- beneficiaries
  | setBeneficiaryReleaseTriggers (id : VaultId) (caller beneficiary : Address)
      (triggers : List ReleaseTrigger)
  | setBeneficiaryTierThreshold (id : VaultId) (caller beneficiary : Address) (tierThreshold : Int)
  | vetoReleaseCondition (id : VaultId) (caller : Address)
  | revokeVetoReleaseCondition (id : VaultId) (caller : Address)
  | acceptBeneficiaryRole (id : VaultId) (caller : Address)
  | updateBeneficiary (id : VaultId) (caller newBeneficiary : Address)
  | commitBeneficiary (id : VaultId) (caller : Address) (commitment : Hash)
  -- settings, ownership, cloning and merging
  | setReleaseConditions (id : VaultId) (caller : Address) (conditions : List ReleaseCondition)
  | initiateOwnershipTransfer (id : VaultId) (caller newOwner : Address)
  | cancelOwnershipTransfer (id : VaultId) (caller : Address)
  | expireOwnershipTransfer (id : VaultId)
  -- passkeys and recovery
  | addPasskey (id : VaultId) (caller : Address) (passkeyHash : Hash)
  | removePasskey (id : VaultId) (caller : Address) (passkeyHash : Hash)
  | bindPasskeyBiometric (id : VaultId) (caller : Address) (passkeyHash biometricHash : Hash)
  | unbindPasskeyBiometric (id : VaultId) (caller : Address) (passkeyHash : Hash)
  | reportPasskeyCompromise (id : VaultId) (caller : Address) (passkeyHash : Hash)
  | clearPasskeyCompromise (id : VaultId) (caller : Address) (passkeyHash : Hash)
  | extendPasskeyExpiry (id : VaultId) (caller : Address) (passkeyHash : Hash) (newExpiry : Nat)
  | escrowPasskey (id : VaultId) (caller : Address) (passkeyHash : Hash) (recoveryContact : Address)
  | releaseEscrowPasskey (id : VaultId) (caller : Address) (passkeyHash : Hash)
  | cancelPasskeyEscrow (id : VaultId) (caller : Address) (passkeyHash : Hash)
  | initiatePasskeyRecovery (id : VaultId) (newPasskeyHash : Hash)
      (recoveryCode : String) (contacts : List Address) (required : Nat)
  | approvePasskeyRecovery (id : VaultId) (caller : Address)
  | generateBackupCodes (id : VaultId) (caller : Address) (codeHashes : List Hash)
  | setRecoveryContact (id : VaultId) (caller contact : Address)
  -- check-ins and time to live
  | enterHibernation (id : VaultId) (caller : Address) (durationSeconds : Nat)
  -- schedules, acceptance, votes, metadata
  | setWithdrawalSchedule (id : VaultId) (schedule : List (Nat × Int))
  | acceptWithConditions (id : VaultId) (conditions : String)
  | approveConditionalAcceptance (id : VaultId)
  | setAcceptanceDeadline (id : VaultId) (deadlineTimestamp : Nat)
  | acceptWithThreshold (id : VaultId) (minBalanceThreshold : Int)
  | submitProofOfLife (id : VaultId) (caller : Address) (validityWindow : Nat)
  | setReleaseVoteThreshold (id : VaultId) (caller : Address) (threshold : Nat)
  | castReleaseVote (id : VaultId) (caller : Address) (approve : Bool)
  -- multi-signature
  | configureMultisig (id : VaultId) (caller : Address) (signers : List Address) (threshold : Nat)
  | removeMultisig (id : VaultId) (caller : Address)
  | removeMultisigSigner (id : VaultId) (caller signerToRemove : Address)
  | proposeMultisig (id : VaultId) (caller : Address) (operation : MultiSigOperation)
      (payload : Bytes) (addressPayload : Option Address)
  | approveMultisig (id : VaultId) (proposalId : Nat) (caller : Address)
  | rejectMultisig (id : VaultId) (proposalId : Nat) (caller : Address)
  | vetoProposal (id : VaultId) (proposalId : Nat) (caller : Address)
  -- vesting
  | setVestingSchedule (id : VaultId) (caller : Address)
      (startTime interval numInstallments : Nat) (amount : Int) (cliffPeriod : Nat)
  | setVestingPenalty (id : VaultId) (caller : Address) (penaltyBps gracePeriodSeconds : Nat)
  | setVestingRollover (id : VaultId) (caller : Address) (enabled : Bool)
  | setVestingAcceleration (id : VaultId) (caller oracle : Address)
  | accelerateVesting (id : VaultId) (caller : Address)
  | setVestingCatchup (id : VaultId) (caller : Address) (enabled : Bool)
      (maxCatchupInstallments : Nat)
  | setVestingBonus (id : VaultId) (caller : Address) (bonusBps onTimeWindowSeconds : Nat)
  | initiateVestingClaim (id : VaultId) (reversalWindowSeconds : Nat)
  | reverseVestingClaim (id : VaultId) (caller : Address)
  -- milestones, staggers, staking
  | setMilestoneVesting (id : VaultId) (caller : Address)
      (milestones : List MilestoneEntry) (oracle : Address)
  | pauseMilestoneVesting (id : VaultId) (caller : Address)
  | resumeMilestoneVesting (id : VaultId) (caller : Address)
  | adjustMilestoneTargets (id : VaultId) (caller : Address) (adjustments : List (Nat × Int))
  | emergencyFulfillMilestones (id : VaultId) (caller : Address) (milestoneIndices : List Nat)
  | reportMilestoneProgress (id : VaultId) (milestoneIndices : List Nat) (currentValues : List Int)
  | setVestingStagger (id : VaultId) (caller : Address) (entries : List VestingStaggerEntry)
  | setBeneficiaryVesting (id : VaultId) (caller beneficiary : Address)
      (startTime interval numInstallments cliffPeriod : Nat)
  | setYieldDistribution (id : VaultId) (mode : YieldDistributionMode)

def execRecord (env : Env) : RecordCall → Contract Unit
  | .createWithdrawalEscrow id amount a caller => createWithdrawalEscrow env id amount a caller
  | .requestWithdrawalApproval id caller amount a b =>
    requestWithdrawalApproval env id caller amount a b
  | .approveWithdrawal id caller => approveWithdrawal env id caller
  | .setWithdrawalLimits id caller a b c => setWithdrawalLimits env id caller a b c
  | .addWhitelistAddress id caller a b => addWhitelistAddress env id caller a b
  | .removeWhitelistAddress id caller a => removeWhitelistAddress env id caller a
  | .setBeneficiaryReleaseTriggers id caller a b => setBeneficiaryReleaseTriggers env id caller a b
  | .setBeneficiaryTierThreshold id caller a b => setBeneficiaryTierThreshold env id caller a b
  | .vetoReleaseCondition id caller => vetoReleaseCondition env id caller
  | .revokeVetoReleaseCondition id caller => revokeVetoReleaseCondition env id caller
  | .acceptBeneficiaryRole id caller => acceptBeneficiaryRole env id caller
  | .updateBeneficiary id caller a => updateBeneficiary env id caller a
  | .commitBeneficiary id caller a => commitBeneficiary env id caller a
  | .setReleaseConditions id caller a => setReleaseConditions env id caller a
  | .initiateOwnershipTransfer id caller a => initiateOwnershipTransfer env id caller a
  | .cancelOwnershipTransfer id caller => cancelOwnershipTransfer env id caller
  | .expireOwnershipTransfer id => expireOwnershipTransfer env id
  | .addPasskey id caller a => addPasskey env id caller a
  | .removePasskey id caller a => removePasskey env id caller a
  | .bindPasskeyBiometric id caller a b => bindPasskeyBiometric env id caller a b
  | .unbindPasskeyBiometric id caller a => unbindPasskeyBiometric env id caller a
  | .reportPasskeyCompromise id caller a => reportPasskeyCompromise env id caller a
  | .clearPasskeyCompromise id caller a => clearPasskeyCompromise env id caller a
  | .extendPasskeyExpiry id caller a b => extendPasskeyExpiry env id caller a b
  | .escrowPasskey id caller a b => escrowPasskey env id caller a b
  | .releaseEscrowPasskey id caller a => releaseEscrowPasskey env id caller a
  | .cancelPasskeyEscrow id caller a => cancelPasskeyEscrow env id caller a
  | .initiatePasskeyRecovery id a b c d => initiatePasskeyRecovery env id a b c d
  | .approvePasskeyRecovery id caller => approvePasskeyRecovery env id caller
  | .generateBackupCodes id caller a => generateBackupCodes env id caller a
  | .setRecoveryContact id caller a => setRecoveryContact env id caller a
  | .enterHibernation id caller a => enterHibernation env id caller a
  | .setWithdrawalSchedule id a => setWithdrawalSchedule env id a
  | .acceptWithConditions id a => acceptWithConditions env id a
  | .approveConditionalAcceptance id => approveConditionalAcceptance env id
  | .setAcceptanceDeadline id a => setAcceptanceDeadline env id a
  | .acceptWithThreshold id a => acceptWithThreshold env id a
  | .submitProofOfLife id caller a => submitProofOfLife env id caller a
  | .setReleaseVoteThreshold id caller a => setReleaseVoteThreshold env id caller a
  | .castReleaseVote id caller a => castReleaseVote env id caller a
  | .configureMultisig id caller a b => configureMultisig env id caller a b
  | .removeMultisig id caller => removeMultisig env id caller
  | .removeMultisigSigner id caller a => removeMultisigSigner env id caller a
  | .proposeMultisig id caller a b c => do
    let _ ← proposeMultisig env id caller a b c
    pure ()
  | .approveMultisig id a caller => approveMultisig env id a caller
  | .rejectMultisig id a caller => rejectMultisig env id a caller
  | .vetoProposal id a caller => vetoProposal env id a caller
  | .setVestingSchedule id caller a b c amount d => setVestingSchedule env id caller a b c amount d
  | .setVestingPenalty id caller a b => setVestingPenalty env id caller a b
  | .setVestingRollover id caller a => setVestingRollover env id caller a
  | .setVestingAcceleration id caller a => setVestingAcceleration env id caller a
  | .accelerateVesting id caller => accelerateVesting env id caller
  | .setVestingCatchup id caller a b => setVestingCatchup env id caller a b
  | .setVestingBonus id caller a b => setVestingBonus env id caller a b
  | .initiateVestingClaim id a => initiateVestingClaim env id a
  | .reverseVestingClaim id caller => reverseVestingClaim env id caller
  | .setMilestoneVesting id caller a b => setMilestoneVesting env id caller a b
  | .pauseMilestoneVesting id caller => pauseMilestoneVesting env id caller
  | .resumeMilestoneVesting id caller => resumeMilestoneVesting env id caller
  | .adjustMilestoneTargets id caller a => adjustMilestoneTargets env id caller a
  | .emergencyFulfillMilestones id caller a => emergencyFulfillMilestones env id caller a
  | .reportMilestoneProgress id a b => reportMilestoneProgress env id a b
  | .setVestingStagger id caller a => setVestingStagger env id caller a
  | .setBeneficiaryVesting id caller a b c d e => setBeneficiaryVesting env id caller a b c d e
  | .setYieldDistribution id mode => setYieldDistribution env id mode

/-- The calls of the contract. -/
inductive Call
  | admin (call : AdminCall)
  | record (call : RecordCall)
  -- creation, check-in, deposits and withdrawal
  | createVault (owner beneficiary : Address) (checkInInterval : Nat)
      (tokenAddress : Option Address)
  | checkIn (id : VaultId) (caller : Address) (passkeyHash : Hash) (nonce : Nat)
  | deposit (id : VaultId) (sender : Address) (amount : Int)
  | batchDeposit (sender : Address) (deposits : List (VaultId × Int))
  | withdraw (id : VaultId) (caller : Address) (amount : Int)
  -- withdrawals
  | partialLiquidate (id : VaultId) (amount : Int) (percentageAllowed : Nat)
  | batchWithdraw (vaultIds : List VaultId) (amounts : List Int) (caller : Address)
  | verifyWithdrawalEscrow (id : VaultId) (caller : Address)
  | executeApprovedWithdrawal (id : VaultId)
  | rollbackWithdrawal (id : VaultId) (rollbackAmount : Int) (caller : Address)
  | reverseWithdrawal (id : VaultId) (caller : Address) (withdrawalId : Nat)
  -- release
  | triggerRelease (id : VaultId)
  | triggerReleaseManual (id : VaultId)
  | panicRelease (id : VaultId) (caller : Address)
  | partialRelease (id : VaultId) (amount : Int)
  -- beneficiaries
  | setBeneficiaries (id : VaultId) (caller : Address) (beneficiaries : List BeneficiaryEntry)
  | scheduleBeneficiaryRotation (id : VaultId) (caller : Address)
      (effectiveTimestamp : Nat) (newBeneficiaries : List BeneficiaryEntry)
  | addBeneficiary (id : VaultId) (caller address : Address) (percentage : Nat)
  | removeBeneficiary (id : VaultId) (caller address : Address)
  | setBenMinThreshold (id : VaultId) (caller beneficiaryAddress : Address) (minimumThreshold : Int)
  | declineBeneficiaryRole (id : VaultId) (caller : Address)
  | applyBeneficiaryUpdate (id : VaultId) (caller : Address)
  | revealBeneficiary (id : VaultId) (proof : Bytes) (claim : Address)
  -- settings, ownership, cloning and merging
  | setSpendingLimit (id : VaultId) (limit : Option Int)
  | setBurnPercentage (id : VaultId) (percentage : Nat)
  | setReleaseCondition (id : VaultId) (caller : Address) (condition : ReleaseCondition)
  | pauseVault (id : VaultId) (caller : Address)
  | resumeVault (id : VaultId) (caller : Address)
  | updateMetadata (id : VaultId) (caller : Address) (metadata : String)
  | setVaultMetadata (id : VaultId) (caller : Address) (metadata : Bytes)
  | acceptOwnershipTransfer (id : VaultId) (newOwner : Address)
  | transferOwnership (id : VaultId) (caller newOwner : Address)
  | cancelVault (id : VaultId) (caller : Address)
  | cloneVault (sourceVaultId : VaultId) (newOwner newBeneficiary : Address)
  | cloneVaultWithOverrides (sourceVaultId : VaultId) (newOwner newBeneficiary : Address)
      (interval : Option Nat) (beneficiaries : Option (List BeneficiaryEntry))
      (metadata : Option String)
  | mergeVaults (targetVaultId : VaultId) (sourceVaultIds : List VaultId) (caller : Address)
  | createVaultFromInheritance (parentVaultId : VaultId) (caller newBeneficiary : Address)
      (checkInInterval : Nat) (tokenAddress : Option Address)
  | restoreVault (id : VaultId) (caller : Address)
  -- passkeys and recovery
  | rotatePasskey (id : VaultId) (caller : Address) (oldPasskeyHash newPasskeyHash : Hash)
  | delegatePasskey (id : VaultId) (caller : Address) (passkeyHash : Hash)
      (delegate : Address) (expiresAt : Nat)
  | revokePasskeyDelegation (id : VaultId) (caller : Address) (passkeyHash : Hash)
  | useBackupCode (id : VaultId) (codeHash : Hash)
  | generateRecoveryCode (id : VaultId) (code : Bytes)
  | recoverWithCode (id : VaultId) (recoveryCode : Bytes) (newPasskeyProof : Hash)
  | requestRecoveryExtension (id : VaultId) (caller : Address)
  | biometricCheckIn (id : VaultId) (caller : Address) (passkeyHash biometricHash : Hash)
  -- check-ins and time to live
  | batchCheckIn (vaultIds : List VaultId) (caller : Address)
  | batchCheckInV2 (vaultIds : List VaultId) (caller : Address) (passkeyHash : Hash)
  | syncVaultTtls (vaultIds : List VaultId) (caller : Address)
  | checkInWithPow (id : VaultId) (caller : Address) (passkeyHash : Hash) (nonce difficulty : Nat)
  | checkInWithGeo (id : VaultId) (caller : Address) (passkeyHash : Hash)
  | addCheckInDelegate (id : VaultId) (caller delegate : Address)
  | removeCheckInDelegate (id : VaultId) (caller delegate : Address)
  | updateCheckInInterval (id : VaultId) (newInterval : Nat)
  | applyTtlDecay (id : VaultId)
  | accelerateTtlDecay (id : VaultId) (caller : Address) (accelerateBySeconds : Nat)
  | borrowTtl (borrowerVaultId lenderVaultId : VaultId) (caller : Address) (borrowSeconds : Nat)
  | repayTtlBorrow (borrowerVaultId : VaultId) (caller : Address)
  | exitHibernation (id : VaultId) (caller : Address)
  -- schedules, acceptance, votes, metadata
  | executeScheduledWithdrawal (id : VaultId)
  | updateMetadataVersioned (id : VaultId) (caller : Address) (newMetadata : String)
  | revertMetadata (id : VaultId) (caller : Address) (version : Nat)
  -- multi-signature
  | executeMultisig (id : VaultId) (proposalId : Nat) (caller : Address)
  -- vesting
  | cancelVestingSchedule (id : VaultId) (scheduleId : Nat) (caller : Address)
  | setVestingForfeiture (id : VaultId) (caller forfeitureRecipient : Address)
  | claimVestedInstallment (id : VaultId)
  | claimCatchupVesting (id : VaultId)
  | claimWithBonus (id : VaultId)
  | finalizeVestingClaim (id : VaultId)
  | clawbackUnvested (id : VaultId) (caller : Address)
  -- milestones, staggers, staking
  | claimMilestoneInstallments (id : VaultId)
  | claimStaggeredVesting (id : VaultId) (caller : Address)
  | claimBeneficiaryVesting (id : VaultId) (beneficiary : Address)
  | enableTokenStaking (id : VaultId) (stakingPool : Address) (annualYieldBps : Nat)
  | disableTokenStaking (id : VaultId)
  | distributeYield (id : VaultId)

def exec (env : Env) : Call → Contract Unit
  | .admin call => execAdmin env call
  | .record call => execRecord env call
  | .createVault a b c d => do
    let _ ← createVault env a b c d
    pure ()
  | .checkIn id caller a b => checkIn env id caller a b
  | .deposit id a amount => deposit env id a amount
  | .batchDeposit a b => batchDeposit env a b
  | .withdraw id caller amount => withdraw env id caller amount
  | .partialLiquidate id amount a => partialLiquidate env id amount a
  | .batchWithdraw a b caller => batchWithdraw env a b caller
  | .verifyWithdrawalEscrow id caller => verifyWithdrawalEscrow env id caller
  | .executeApprovedWithdrawal id => executeApprovedWithdrawal env id
  | .rollbackWithdrawal id a caller => rollbackWithdrawal env id a caller
  | .reverseWithdrawal id caller a => reverseWithdrawal env id caller a
  | .triggerRelease id => triggerRelease env id
  | .triggerReleaseManual id => triggerReleaseManual env id
  | .panicRelease id caller => panicRelease env id caller
  | .partialRelease id amount => partialRelease env id amount
  | .setBeneficiaries id caller a => setBeneficiaries env id caller a
  | .scheduleBeneficiaryRotation id caller a b => scheduleBeneficiaryRotation env id caller a b
  | .addBeneficiary id caller a b => addBeneficiary env id caller a b
  | .removeBeneficiary id caller a => removeBeneficiary env id caller a
  | .setBenMinThreshold id caller a b => setBenMinThreshold env id caller a b
  | .declineBeneficiaryRole id caller => declineBeneficiaryRole env id caller
  | .applyBeneficiaryUpdate id caller => applyBeneficiaryUpdate env id caller
  | .revealBeneficiary id a b => revealBeneficiary env id a b
  | .setSpendingLimit id a => setSpendingLimit env id a
  | .setBurnPercentage id a => setBurnPercentage env id a
  | .setReleaseCondition id caller a => setReleaseCondition env id caller a
  | .pauseVault id caller => pauseVault env id caller
  | .resumeVault id caller => resumeVault env id caller
  | .updateMetadata id caller a => updateMetadata env id caller a
  | .setVaultMetadata id caller a => setVaultMetadata env id caller a
  | .acceptOwnershipTransfer id a => acceptOwnershipTransfer env id a
  | .transferOwnership id caller a => transferOwnership env id caller a
  | .cancelVault id caller => cancelVault env id caller
  | .cloneVault a b c => do
    let _ ← cloneVault env a b c
    pure ()
  | .cloneVaultWithOverrides sourceVaultId newOwner newBeneficiary interval beneficiaries
      metadata => do
    let _ ← cloneVaultWithOverrides env sourceVaultId newOwner newBeneficiary interval
      beneficiaries metadata
    pure ()
  | .mergeVaults a b caller => mergeVaults env a b caller
  | .createVaultFromInheritance parentVaultId caller newBeneficiary checkInInterval
      tokenAddress => do
    let _ ← createVaultFromInheritance env parentVaultId caller newBeneficiary checkInInterval
      tokenAddress
    pure ()
  | .restoreVault id caller => restoreVault env id caller
  | .rotatePasskey id caller a b => rotatePasskey env id caller a b
  | .delegatePasskey id caller a b c => delegatePasskey env id caller a b c
  | .revokePasskeyDelegation id caller a => revokePasskeyDelegation env id caller a
  | .useBackupCode id a => useBackupCode env id a
  | .generateRecoveryCode id code => generateRecoveryCode env id code
  | .recoverWithCode id a b => recoverWithCode env id a b
  | .requestRecoveryExtension id caller => requestRecoveryExtension env id caller
  | .biometricCheckIn id caller a b => biometricCheckIn env id caller a b
  | .batchCheckIn a caller => batchCheckIn env a caller
  | .batchCheckInV2 a caller b => batchCheckInV2 env a caller b
  | .syncVaultTtls a caller => syncVaultTtls env a caller
  | .checkInWithPow id caller a b c => checkInWithPow env id caller a b c
  | .checkInWithGeo id caller a => checkInWithGeo env id caller a
  | .addCheckInDelegate id caller a => addCheckInDelegate env id caller a
  | .removeCheckInDelegate id caller a => removeCheckInDelegate env id caller a
  | .updateCheckInInterval id a => updateCheckInInterval env id a
  | .applyTtlDecay id => do
    let _ ← applyTtlDecay env id
    pure ()
  | .accelerateTtlDecay id caller a => accelerateTtlDecay env id caller a
  | .borrowTtl a b caller c => borrowTtl env a b caller c
  | .repayTtlBorrow a caller => repayTtlBorrow env a caller
  | .exitHibernation id caller => exitHibernation env id caller
  | .executeScheduledWithdrawal id => executeScheduledWithdrawal env id
  | .updateMetadataVersioned id caller a => updateMetadataVersioned env id caller a
  | .revertMetadata id caller a => revertMetadata env id caller a
  | .executeMultisig id a caller => executeMultisig env id a caller
  | .cancelVestingSchedule id a caller => cancelVestingSchedule env id a caller
  | .setVestingForfeiture id caller a => setVestingForfeiture env id caller a
  | .claimVestedInstallment id => claimVestedInstallment env id
  | .claimCatchupVesting id => claimCatchupVesting env id
  | .claimWithBonus id => claimWithBonus env id
  | .finalizeVestingClaim id => finalizeVestingClaim env id
  | .clawbackUnvested id caller => clawbackUnvested env id caller
  | .claimMilestoneInstallments id => claimMilestoneInstallments env id
  | .claimStaggeredVesting id caller => claimStaggeredVesting env id caller
  | .claimBeneficiaryVesting id a => claimBeneficiaryVesting env id a
  | .enableTokenStaking id a b => enableTokenStaking env id a b
  | .disableTokenStaking id => disableTokenStaking env id
  | .distributeYield id => distributeYield env id

/-! ### Runs -/

/-- A call with the environment it is made in. -/
structure Invocation where
  env : Env
  call : Call

theorem exec_record (env : Env) (call : RecordCall) : exec env
    (.record call) = execRecord env call := by
  rw [exec]

/-- A call that goes through. The host stays the same along a run. -/
def step (host : Host) (s : State) (input : Invocation) (t : State) : Prop :=
  input.env.toHost = host ∧ exec input.env input.call s = .ok ((), t)

abbrev VaultEvent : Type := Event State Invocation

abbrev History : Type := List VaultEvent

abbrev ContractRun (host : Host) (start : State) : History → State → Prop :=
  Run (step host) start

def replayStep (record : History × State) (input : Invocation) : History × State :=
  match exec input.env input.call record.2 with
  | .ok (_, t) => (record.1 ++ [⟨record.2, input, t⟩], t)
  | .error _ => record

/-- The run that a list of invocations gives, with the failing ones left out. -/
def replay (start : State) (inputs : List Invocation) : History × State :=
  inputs.foldl replayStep ([], start)

def Invocation.run (input : Invocation) : Contract Unit := exec input.env input.call

theorem replay_eq_play : replay start inputs = play Invocation.run start inputs := by
  have same : replayStep = playStep Invocation.run := by
    funext record input
    unfold replayStep playStep Invocation.run
    cases exec input.env input.call record.2 <;> rfl
  rw [replay, same, play]

theorem replay_run {host : Host} (sameHost : ∀ input ∈ inputs, input.env.toHost = host) :
    ContractRun host start (replay start inputs).1 (replay start inputs).2 := by
  rw [replay_eq_play]
  exact play_run fun input member _ _ ran => ⟨sameHost input member, ran⟩

theorem replay_inputs : ∀ event ∈ (replay start inputs).1, event.input ∈ inputs := by
  rw [replay_eq_play]
  exact play_inputs Invocation.run start inputs

def nextEvent (start : State) (inputs : List Invocation) (input : Invocation) : VaultEvent where
  before := (replay start inputs).2
  input := input
  after := (exec input.env input.call).after (replay start inputs).2

theorem nextEvent_run (ok : (exec input.env input.call (replay start inputs).2).isOk = true) :
    ContractRun input.env.toHost (replay start inputs).2 [nextEvent start inputs input]
      (nextEvent start inputs input).after :=
  Run.snoc .nil ⟨rfl, Tx.eq_ok_after ok⟩

/-! ### Initial states -/

/-- The contract after `initialize`, with the given token holdings. -/
def initialState (xlmToken admin : Address) (ledger : Ledger Address Address) : State where
  ledger := ledger
  config := { tokenAddress := some xlmToken, admin := some admin }

theorem initializeContract_blank (env : Env) (xlmToken admin : Address)
    (ledger : Ledger Address Address) :
    (initializeContract env xlmToken admin).wp { ledger := ledger } fun _ t =>
      t = initialState xlmToken admin ledger := by
  simp only [initializeContract, setConfig, require, requireAuth, wp_core]
  intros
  rfl

/-- A contract at address `0` with token `1` and admin `2`, whose user `3` holds 1000 of every
token. -/
def plainHost : Host := ⟨⟨0⟩, id⟩

@[inherit_doc plainHost]
def fundedState : State :=
  initialState ⟨1⟩ ⟨2⟩ fun _ holder => if holder = ⟨3⟩ then 1000 else 0

/-- An environment in which no other contract answers. -/
def plainEnv (now : Nat) (signers : List Address) : Env :=
  { plainHost with
    now := now
    signers := signers
    isToken := fun _ => false
    oracleFlags := fun _ _ => false
    observationTimestamp := fun _ => none
    queryRelease := fun _ => false }

/-- Calls, each with its time and its signer. -/
abbrev Scenario : Type := List (Nat × Address × Call)

/-- Invocations in such environments. -/
def plainInputs (calls : Scenario) : List Invocation :=
  calls.map fun (now, signer, call) => ⟨plainEnv now [signer], call⟩

abbrev PlainRun : History → State → Prop := ContractRun plainHost fundedState

abbrev played (calls : Scenario) : History × State :=
  replay fundedState (plainInputs calls)

theorem plainInputs_run_from (calls : Scenario) :
    ContractRun plainHost start (replay start (plainInputs calls)).1
      (replay start (plainInputs calls)).2 := by
  refine replay_run start (plainInputs calls) fun input member => ?_
  obtain ⟨entry, -, rfl⟩ := List.mem_map.mp member
  rfl

theorem plainInputs_run (calls : Scenario) : PlainRun (played calls).1 (played calls).2 :=
  plainInputs_run_from fundedState calls

theorem plainInputs_event {calls : Scenario} {event : VaultEvent}
    (member : event ∈ (played calls).1) :
    ∃ entry ∈ calls, event.input = ⟨plainEnv entry.1 [entry.2.1], entry.2.2⟩ := by
  obtain ⟨entry, listed, same⟩ :=
    List.mem_map.mp (replay_inputs fundedState (plainInputs calls) event member)
  exact ⟨entry, listed, same.symm⟩

end EthosContracts.TtlVault
