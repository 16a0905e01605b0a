/-
**The state of the `ttl_vault` contract, the environment of a call and the primitive operations.**

The build profile has `overflow-checks = true`, so plain arithmetic traps when it overflows. A
missing entry of a list-valued or boolean key reads as the source's default for it.
-/

import EthosContracts.Lib.Transaction
import EthosContracts.Lib.Ledger
import EthosContracts.TtlVault.Types

namespace EthosContracts.TtlVault

open Lib

/-! ### Storage -/

/-- Instance-wide configuration (`admin.rs`). -/
structure ConfigState where
  tokenAddress : Option Address := none
  admin : Option Address := none
  paused : Bool := false
  pendingAdmin : Option Address := none
  adminTransferProposedAt : Option Nat := none
  minCheckInInterval : Option Nat := none
  maxCheckInInterval : Option Nat := none
  maxTtlSeconds : Option Nat := none
  ttlDecayRate : Option Nat := none
  pendingProtocolConfig : Option ProtocolConfig := none
  protocolConfigProposedAt : Option Nat := none
  releaseGracePeriodSeconds : Option Nat := none
  requireUtf8Metadata : Bool := false
  tokenWhitelist : Address → Bool := fun _ => false
  wrappedToken : Address → Option Address := fun _ => none
  ownerVaultLimit : Nat := 0
  beneficiaryVaultLimit : Nat := 0
  minCheckInCooldown : Option Nat := none

/-- Screening data (`compliance.rs`, `compliance_policy.rs`, `aml.rs`). -/
structure ComplianceState where
  blacklist : Address → Bool := fun _ => false
  allowlist : Address → Bool := fun _ => false
  allowlistEnforced : Bool := false
  kycProvider : Option Address := none
  kyc : Address → Option KycRecord := fun _ => none
  kycHighValueThreshold : Int := 0
  thresholdConfig : Option ThresholdConfig := none
  policies : List Policy := []
  appliedPolicy : Nat := 0
  amlOracle : Option Address := none
  amlReporter : Option Address := none
  amlFlag : Address → Bool := fun _ => false

/-- The indexes over the vaults and their metadata history. -/
structure IndexState where
  metadataHistory : VaultId → List MetadataVersionEntry := fun _ => []
  ownerVaults : Address → List VaultId := fun _ => []
  beneficiaryVaults : Address → List VaultId := fun _ => []
  vaultDuplicate : Address → Address → Nat → Option VaultId := fun _ _ _ => none

/-- Check-ins, passkeys and recovery. -/
structure CheckInState where
  checkInDelegates : VaultId → List Address := fun _ => []
  delegateNonce : VaultId → Address → Nat := fun _ _ => 0
  lastCheckInTime : VaultId → Option Nat := fun _ => none
  vaultPasskeys : VaultId → List PasskeyHash := fun _ => []
  compromisedPasskeys : VaultId → List Hash := fun _ => []
  passkeyEscrow : VaultId → Hash → Option PasskeyEscrowRecord := fun _ _ => none
  passkeyExpiry : VaultId → Hash → Option Nat := fun _ _ => none
  passkeyDelegation : VaultId → Hash → Option PasskeyDelegation := fun _ _ => none
  passkeyRecoveryRequest : VaultId → Option PasskeyRecoveryRequest := fun _ => none
  recoveryContacts : VaultId → Option (List Address) := fun _ => none
  backupCodes : VaultId → Option (List BackupCode) := fun _ => none
  encryptedBackupCodes : VaultId → Option (List HashedBackupCode) := fun _ => none
  recoveryCodeHash : VaultId → Option Hash := fun _ => none
  hibernation : VaultId → Option HibernationEntry := fun _ => none
  ttlBorrow : VaultId → Option TtlBorrowRecord := fun _ => none

/-- Beneficiary data, release conditions and pending changes. -/
structure BeneficiaryState where
  beneficiaryStatus : VaultId → Option BeneficiaryStatus := fun _ => none
  beneficiaryStatusEntry : VaultId → Address → Option BeneficiaryStatus := fun _ _ => none
  releaseTriggers : VaultId → List (Address × List ReleaseTrigger) := fun _ => []
  tierThreshold : VaultId → Address → Int := fun _ _ => 0
  rotationSchedule : VaultId → Option (List BeneficiaryRotationEntry) := fun _ => none
  conditionalAcceptance : VaultId → Option ConditionalAcceptanceEntry := fun _ => none
  beneficiaryConditionalAcceptance :
    VaultId → Option BeneficiaryConditionalAcceptance := fun _ => none
  proofOfLife : VaultId → Option ProofOfLifeEntry := fun _ => none
  releaseVoteThreshold : VaultId → Option Nat := fun _ => none
  releaseVotes : VaultId → List ReleaseVoteEntry := fun _ => []
  releaseConditions : VaultId → Option (List ReleaseCondition) := fun _ => none
  releaseConditionVeto : VaultId → Bool := fun _ => false
  releaseAttempted : VaultId → Bool := fun _ => false
  commitment : VaultId → Option BeneficiaryCommitment := fun _ => none
  revealedBeneficiary : VaultId → Option Address := fun _ => none
  pendingOwnership : VaultId → Option OwnershipTransferRequest := fun _ => none
  pendingBeneficiaryUpdate : VaultId → Option PendingBeneficiaryUpdate := fun _ => none

/-- Withdrawal workflows. -/
structure WithdrawalState where
  approvalRequest : VaultId → Option WithdrawalApprovalRequest := fun _ => none
  approvers : VaultId → Option (List Address) := fun _ => none
  escrow : VaultId → Option WithdrawalEscrow := fun _ => none
  schedule : VaultId → Option (List WithdrawalScheduleEntry) := fun _ => none
  limit : VaultId → Option WithdrawalLimit := fun _ => none
  tracker : VaultId → Option WithdrawalTracker := fun _ => none
  whitelist : VaultId → Option (List WhitelistEntry) := fun _ => none
  reversal : VaultId → Nat → Option WithdrawalReversal := fun _ _ => none
  reversalCounter : VaultId → Nat := fun _ => 0
  auditLog : VaultId → List WithdrawalAuditEntry := fun _ => []

/-- Multi-signature configuration and proposals. -/
structure MultiSigState where
  config : VaultId → Option MultiSigConfig := fun _ => none
  proposal : VaultId → Nat → Option MultiSigProposal := fun _ _ => none
  proposalCount : VaultId → Nat := fun _ => 0
  openProposals : VaultId → List Nat := fun _ => []

/-- Vesting schedules, staking and yield. -/
structure VestingState where
  schedule : VaultId → Nat → Option VestingSchedule := fun _ _ => none
  scheduleCount : VaultId → Nat := fun _ => 0
  penalty : VaultId → Nat → Option VestingPenaltyConfig := fun _ _ => none
  pendingClaim : VaultId → Nat → Option VestingPendingClaim := fun _ _ => none
  milestones : VaultId → Option MilestoneVestingSchedule := fun _ => none
  beneficiarySchedule : VaultId → Address → Option BeneficiaryVestingSchedule := fun _ _ => none
  catchUp : VaultId → Option VestingCatchUpConfig := fun _ => none
  bonus : VaultId → Option VestingBonusConfig := fun _ => none
  rollover : VaultId → Option VestingRolloverConfig := fun _ => none
  forfeiture : VaultId → Option VestingForfeitureConfig := fun _ => none
  acceleration : VaultId → Option VestingAccelerationConfig := fun _ => none
  stagger : VaultId → Option (List VestingStaggerEntry) := fun _ => none
  staking : VaultId → Option TokenStaking := fun _ => none
  yieldDistribution : VaultId → Option YieldDistributionConfig := fun _ => none

/-- A payment out of a vault. -/
structure Payout where
  vaultId : VaultId
  token : Address
  payee : Address
  amount : Int
deriving DecidableEq

/-- The contract's storage, grouped by what the keys are about, and the token ledger. `payouts` is
written by every transfer out of a vault and read by no call. -/
structure State where
  vaults : VaultId → Option Vault := fun _ => none
  vaultCount : Nat := 0
  ledger : Ledger Address Address := fun _ _ => 0
  payouts : List Payout := []
  config : ConfigState := {}
  compliance : ComplianceState := {}
  index : IndexState := {}
  checkIns : CheckInState := {}
  beneficiaries : BeneficiaryState := {}
  withdrawals : WithdrawalState := {}
  multiSig : MultiSigState := {}
  vesting : VestingState := {}

/-! ### Calls -/

/-- What stays the same over all calls: the contract's own address and the host's hash function. -/
structure Host where
  self : Address
  sha256 : Bytes → Hash

structure Env extends Host where
  now : Nat
  /-- The addresses that authorised the call. -/
  signers : List Address
  /-- Whether the contract at an address answers `balance`. -/
  isToken : Address → Bool
  /-- The answer of a sanctions oracle about an address; a failing oracle counts as a hit. -/
  oracleFlags : Address → Address → Bool
  /-- The time of a release oracle's latest observation, if it answers. -/
  observationTimestamp : Address → Option Nat
  /-- The answer of a release oracle; a failing oracle counts as `false`. -/
  queryRelease : Address → Bool

/-- The entry points' type. A call that fails returns no state. -/
abbrev Contract (α : Type) : Type := Tx Failure State α

def require (condition : Prop) [Decidable condition] (code : ContractError) : Contract Unit :=
  ensure condition (.error code)

def found {α : Type} (value : Option α) (code : ContractError) : Contract α :=
  expect value (.error code)

/-- `address.require_auth()`. The contract never authorises a call of its own entry points. -/
def requireAuth (env : Env) (address : Address) : Contract Unit :=
  ensure (address ≠ env.self ∧ address ∈ env.signers) .unauthorized

/-! ### Machine arithmetic -/

def maxU32 : Nat := 2 ^ 32 - 1

def maxU64 : Nat := 2 ^ 64 - 1

def u64 (value : Nat) : Contract Nat := do
  ensure (value ≤ maxU64) .overflow
  pure value

def u64Sub (a b : Nat) : Contract Nat := do
  ensure (b ≤ a) .overflow
  pure (a - b)

/-- `u64::saturating_add`: as much is added as fits. -/
def saturatingAdd (a b : Nat) : Nat := a + min b (maxU64 - a)

/-- `i128::MAX`, which is `2 ^ 127 - 1`. -/
def maxI128 : Int := 170141183460469231731687303715884105727

/-- The values of an `i128`. -/
def InI128 (value : Int) : Prop := -maxI128 - 1 ≤ value ∧ value ≤ maxI128

instance (value : Int) : Decidable (InI128 value) :=
  inferInstanceAs (Decidable (-maxI128 - 1 ≤ value ∧ value ≤ maxI128))

def i128 (value : Int) : Contract Int := do
  ensure (InI128 value) .overflow
  pure value

/-- Plain `i128` division: truncating, with a trap at zero. -/
def i128Div (a b : Int) : Contract Int := do
  ensure (b ≠ 0) .divisionByZero
  pure (a.tdiv b)

/-! ### Tokens -/

def transfer (token sender receiver : Address) (amount : Int) : Contract Unit := do
  let ledger ← read State.ledger
  let after ← expect (ledger.transfer token sender receiver amount) .transferFailed
  write fun s => { s with ledger := after }

/-- A transfer from the contract, made out of the vault `vaultId`. -/
def payOut (env : Env) (id : VaultId) (token payee : Address) (amount : Int) : Contract Unit := do
  transfer token env.self payee amount
  write fun s => { s with payouts := s.payouts ++ [⟨id, token, payee, amount⟩] }

end EthosContracts.TtlVault
