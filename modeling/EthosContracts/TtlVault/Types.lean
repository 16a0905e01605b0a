/-
**The stored data of the `ttl_vault` contract** (`types.rs`, `compliance.rs`,
`compliance_policy.rs`).

One record per storage key that a modelled entry point reads; the fields keep the source's names.
Timestamps and identifiers (`u64`) and basis points (`u32`) are natural numbers, amounts (`i128`)
are integers; the arithmetic that can overflow is checked where the code performs it.
-/

import Mathlib.Data.List.Basic

namespace EthosContracts.TtlVault

structure Address where
  toNat : Nat
  deriving DecidableEq

abbrev VaultId : Type := Nat

abbrev Bytes : Type := List UInt8

/-- A `BytesN<32>`; its length plays no role. -/
abbrev Hash : Type := Bytes

/-- Hashes are compared byte by byte. -/
instance : LawfulBEq Hash := inferInstance

/-! ### The vault record -/

inductive ReleaseStatus
  | locked
  | released
  | cancelled
  | emergencyFrozen
  deriving DecidableEq

inductive ReleaseCondition
  | ttlExpiry
  | ownerInitiated
  | oracle (address : Address)
  deriving DecidableEq

structure BeneficiaryEntry where
  address : Address
  bps : Nat
  minimumThreshold : Int

structure Vault where
  owner : Address
  beneficiary : Address
  balance : Int
  checkInInterval : Nat
  lastCheckIn : Nat
  createdAt : Nat
  status : ReleaseStatus
  beneficiaries : List BeneficiaryEntry
  metadata : String
  tokenAddress : Address
  customMetadata : Bytes
  isPaused : Bool
  releaseCondition : ReleaseCondition
  parentVaultId : Option VaultId
  passkeyHash : Option Bytes
  maxDepositAmount : Option Int
  withdrawalApprovalThreshold : Option Int
  spendingLimit : Option Int
  inactivityPenaltyBps : Option Nat
  burnPercentage : Nat
  penaltyRecipient : Option Address

/-! ### Protocol configuration and compliance -/

structure ProtocolConfig where
  minCheckInInterval : Option Nat
  maxCheckInInterval : Option Nat
  maxTtlSeconds : Nat
  ttlDecayRate : Nat

inductive KycStatus
  | verified
  | revoked
  deriving DecidableEq

structure KycData where
  providerReference : Hash
  level : Nat
  expiresAt : Nat

structure KycRecord where
  status : KycStatus
  level : Nat
  providerReference : Hash
  verifiedBy : Address
  verifiedAt : Nat
  expiresAt : Nat

structure ThresholdConfig where
  singleTxThreshold : Int
  cumulativeThreshold : Int
  windowSeconds : Nat

structure Policy where
  version : Nat
  effectiveFrom : Nat
  kycHighValueThreshold : Int
  allowlistEnforced : Bool
  reportingThresholds : Option ThresholdConfig

/-! ### Check-ins and passkeys -/

structure PasskeyHash where
  hash : Hash
  addedAt : Nat
  biometricHash : Option Bytes

structure PasskeyDelegation where
  delegate : Address
  expiresAt : Nat

structure PasskeyEscrowRecord where
  recoveryContact : Address
  escrowedAt : Nat

structure BackupCode where
  code : String
  used : Bool

structure HashedBackupCode where
  codeHash : Hash
  used : Bool

structure PasskeyRecoveryRequest where
  newPasskeyHash : Hash
  initiatedAt : Nat
  recoveryCode : String
  approvedContacts : List Address
  requiredContacts : Nat

structure HibernationEntry where
  startedAt : Nat
  durationSeconds : Nat

structure TtlBorrowRecord where
  borrowerVaultId : VaultId
  lenderVaultId : VaultId
  borrowedSeconds : Nat
  borrowedAt : Nat
  repaid : Bool

/-! ### Beneficiaries and release -/

inductive BeneficiaryStatus
  | pending
  | accepted
  | declined
  deriving DecidableEq

inductive ReleaseTrigger
  | expiry
  | manual
  deriving DecidableEq

structure BeneficiaryRotationEntry where
  effectiveTimestamp : Nat
  newBeneficiaries : List BeneficiaryEntry

structure ConditionalAcceptanceEntry where
  conditions : String
  approvedByOwner : Bool
  acceptanceDeadline : Option Nat
  minBalanceThreshold : Option Int

structure BeneficiaryConditionalAcceptance where
  minBalanceThreshold : Int
  acceptedAt : Nat

structure ProofOfLifeEntry where
  beneficiary : Address
  submittedAt : Nat
  validUntil : Nat

structure ReleaseVoteEntry where
  voter : Address
  approve : Bool
  votedAt : Nat

structure BeneficiaryCommitment where
  commitment : Hash
  committedAt : Nat

structure OwnershipTransferRequest where
  newOwner : Address
  initiatedAt : Nat
  unlocksAt : Nat
  expiresAt : Nat

structure PendingBeneficiaryUpdate where
  newBeneficiary : Address
  initiatedAt : Nat
  unlocksAt : Nat

structure MetadataVersionEntry where
  version : Nat
  metadata : String
  updatedAt : Nat
  updatedBy : Address

/-! ### Withdrawals -/

structure WithdrawalApprovalRequest where
  amount : Int
  requestedAt : Nat
  approvals : List Address
  requiredApprovals : Nat
  expiresAt : Nat

structure WithdrawalEscrow where
  vaultId : VaultId
  amount : Int
  timestamp : Nat
  beneficiary : Address
  verified : Bool

structure WithdrawalScheduleEntry where
  timestamp : Nat
  amount : Int

structure WithdrawalLimit where
  dailyLimit : Int
  weeklyLimit : Int
  monthlyLimit : Int

structure WithdrawalTracker where
  dailyWithdrawn : Int
  dailyResetAt : Nat
  weeklyWithdrawn : Int
  weeklyResetAt : Nat
  monthlyWithdrawn : Int
  monthlyResetAt : Nat

structure WhitelistEntry where
  address : Address
  addedAt : Nat
  label : String

structure WithdrawalReversal where
  withdrawalId : Nat
  amount : Int
  withdrawnAt : Nat
  gracePeriodUntil : Nat
  reversed : Bool

structure WithdrawalAuditEntry where
  vaultId : VaultId
  caller : Address
  amount : Int
  timestamp : Nat
  success : Bool
  errorReason : String

/-! ### Multi-signature -/

inductive MultiSigOperation
  | withdraw
  | updateBeneficiary
  | cancelVault
  | updateCheckInInterval
  | transferOwnership
  deriving DecidableEq

inductive ProposalStatus
  | pending
  | approved
  | rejected
  | executed
  | expired
  | vetoed
  deriving DecidableEq

structure MultiSigConfig where
  signers : List Address
  threshold : Nat

structure MultiSigProposal where
  id : Nat
  operation : MultiSigOperation
  approvals : List Address
  status : ProposalStatus
  expiresAt : Nat
  vaultId : VaultId
  payload : Bytes
  addressPayload : Option Address
  createdAt : Nat

/-! ### Vesting -/

structure VestingSchedule where
  startTime : Nat
  interval : Nat
  numInstallments : Nat
  claimedInstallments : Nat
  totalAmount : Int
  cliffPeriod : Nat

structure VestingPenaltyConfig where
  penaltyBps : Nat
  gracePeriodSeconds : Nat

structure VestingPendingClaim where
  amount : Int
  beneficiary : Address
  initiatedAt : Nat
  reversalDeadline : Nat
  newInstallmentsClaimed : Nat
  prevInstallmentsClaimed : Nat

structure MilestoneEntry where
  label : String
  targetValue : Int
  currentValue : Int
  bps : Nat
  isFulfilled : Bool
  claimed : Bool

structure MilestoneVestingSchedule where
  totalAmount : Int
  milestones : List MilestoneEntry
  claimedAmount : Int
  oracle : Address
  paused : Bool

structure BeneficiaryVestingSchedule where
  beneficiary : Address
  vaultId : VaultId
  startTime : Nat
  interval : Nat
  numInstallments : Nat
  claimedInstallments : Nat
  totalAmount : Int
  cliffPeriod : Nat

structure VestingCatchUpConfig where
  enabled : Bool
  maxCatchupInstallments : Nat

structure VestingBonusConfig where
  bonusBps : Nat
  onTimeWindowSeconds : Nat

structure VestingRolloverConfig where
  enabled : Bool
  rolledAmount : Int

structure VestingForfeitureConfig where
  forfeitureRecipient : Address
  forfeited : Bool

structure VestingAccelerationConfig where
  oracle : Address
  accelerated : Bool

structure VestingStaggerEntry where
  beneficiary : Address
  bps : Nat
  startTime : Nat
  interval : Nat
  numInstallments : Nat
  claimedInstallments : Nat

/-! ### Staking and yield -/

structure TokenStaking where
  vaultId : VaultId
  stakingPool : Address
  stakedAmount : Int
  stakingStart : Nat
  annualYieldBps : Nat
  isActive : Bool

inductive YieldDistributionMode
  | distributeToBeneficiary
  | reinvest
  | split (beneficiaryBps : Nat)
  deriving DecidableEq

structure YieldDistributionConfig where
  vaultId : VaultId
  mode : YieldDistributionMode
  lastDistribution : Nat
  totalDistributed : Int
  totalReinvested : Int

/-! ### Error codes -/

/-- The codes of `ContractError` that the modelled entry points use. -/
inductive ContractError
  | alreadyInitialized | invalidInterval | vaultNotFound | emptyVault | invalidAmount | notOwner
  | alreadyReleased | insufficientBalance | notAdmin | paused | noPendingAdmin | invalidBps
  | intervalTooLow | intervalTooHigh | notExpired | invalidBeneficiary | balanceOverflow
  | vaultExpired | invalidAdmin | notInitialized | vestingNotFound | nothingToClaimYet
  | vestingAlreadyComplete | maxTtlExceeded | invalidPasskey | passkeyNotFound | invalidBackupCode
  | backupCodeAlreadyUsed | notBeneficiary | noScheduledWithdrawals | conditionsNotApproved
  | noPendingOwnershipTransfer | ownershipTransferExpired | ownershipTransferTimeLocked
  | depositLimitExceeded | withdrawalNotApproved | notRecoveryContact | invalidThreshold
  | multiSigRequired | notASigner | proposalNotFound | proposalExpired | alreadyApproved
  | proposalNotApproved | metadataVersionNotFound | vaultCapacityExceeded | incompatibleVaultToken
  | proofOfLifeRequired | alreadyVoted | votingNotEnabled | alreadyHibernating | notHibernating
  | duplicateVault | checkInTooFrequent | vaultFrozen | cliffNotReached
  | insufficientTtlToAccelerate | ttlBorrowNotFound | ttlBorrowAlreadyRepaid
  | overlappingWithdrawalSchedule | conflictingWithdrawalSchedule | dailyWithdrawalLimitExceeded
  | weeklyWithdrawalLimitExceeded | monthlyWithdrawalLimitExceeded
  | withdrawalDestinationNotWhitelisted | withdrawalReversalGracePeriodExpired
  | withdrawalAlreadyReversed | catchUpNotEnabled | bonusNotEnabled | tokenNotWhitelisted
  | notReleased | gracePeriodExpired | nothingToClawback | invalidVestingSchedule | invalidNonce
  | adminCannotOwnVault | adminTransferTimeLocked | alreadyOwner | beneficiaryAlreadyRevealed
  | beneficiaryCapacityExceeded | beneficiaryVetoReleaseCondition | commitmentAlreadySet
  | commitmentNotFound | gracePeriodActive | invalidConfig | invalidMetadataEncoding
  | invalidRecoveryCode | invalidWithdrawDestination | invalidZkProof | noPendingProtocolConfig
  | passkeyCompromised | passkeyExpired | protocolConfigTimeLocked | recoveryCodeNotSet
  | unauthorizedDepositor | vestingAlreadyAccelerated | vestingReversalExpired
  | vestingReversalNotFound | vestingStaggerNotFound | invalidPercentage | liquidationExceedsLimit
  | alreadyInEscrow | passkeyInEscrow | amlFlaggedAddress | policyVersionNotFound
  | invalidEffectiveDate | invalidBlacklistReason | addressBlacklisted | addressNotAllowlisted
  | kycProviderNotSet | kycNotFound | kycRequired | invalidToken | batchSizeExceeded
  | invalidPauseReason | poolAlreadyExists | poolNotFound | insufficientPoolLiquidity
  | insufficientCollateral | loanNotFound | loanNotActive | loanNotDue | invalidLendingConfig
  | insufficientShares | compressionCorrupted | snapshotNotFound | snapshotCorrupted
  | upgradeInvalidHash | upgradeManifestNotSet | upgradeInterfaceShrunk | upgradeErrorCodesReduced
  | upgradeStorageSchemaChanged | upgradeFunctionSignaturesNotSet
  | upgradeFunctionSignaturesChanged | upgradeFunctionSignaturesRequired | upgradeManifestRequired
  | noPendingUpgrade | upgradeTimeLocked | nftNotFound | nftMetadataTooLong | cannotBuyOwnNft
  | insufficientQuorum
  deriving DecidableEq

/-- Why a call fails: a code of the contract, or a trap of the host or the token. -/
inductive Failure
  | error (code : ContractError)
  | unauthorized
  | overflow
  | divisionByZero
  | transferFailed
  | trapped
  deriving DecidableEq

end EthosContracts.TtlVault
