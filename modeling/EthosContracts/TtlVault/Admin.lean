/-
**Administration and screening data** (`admin.rs`, `compliance_and_history.rs`, `compliance.rs`,
`compliance_policy.rs`, `aml.rs`, the limits of `beneficiary_workflows.rs` and `views.rs`).

These calls write the configuration and the screening data that the guards of the other calls
read; none of them touches a vault or the ledger.
-/

import EthosContracts.TtlVault.Storage

namespace EthosContracts.TtlVault

open Lib Function

def maxReasonLen : Nat := 256

def protocolConfigTimelock : Nat := 86400

def adminTransferTimelock : Nat := 86400

def setConfig (change : ConfigState → ConfigState) : Contract Unit :=
  write fun s => { s with config := change s.config }

def setCompliance (change : ComplianceState → ComplianceState) : Contract Unit :=
  write fun s => { s with compliance := change s.compliance }

variable (env : Env) (caller address : Address)

/-! ### Initialisation and pause -/

def initializeContract (xlmToken admin : Address) : Contract Unit := do
  let config ← read State.config
  require (config.tokenAddress = none ∧ config.admin = none) .alreadyInitialized
  require (xlmToken ≠ admin) .invalidAdmin
  requireAuth env admin
  require (env.isToken xlmToken = true) .invalidToken
  setConfig fun c => { c with tokenAddress := some xlmToken, admin := some admin, paused := false }

def pause (reason : Bytes) : Contract Unit := do
  requireAdmin env
  require (reason.length ≤ maxReasonLen) .invalidPauseReason
  setConfig fun c => { c with paused := true }

def unpause : Contract Unit := do
  requireAdmin env
  setConfig fun c => { c with paused := false }

/-! ### Protocol limits -/

def setMinCheckInInterval (minInterval : Nat) : Contract Unit := do
  requireAdmin env
  require (minInterval ≠ 0) .invalidConfig
  let max ← read (·.config.maxCheckInInterval)
  require (∀ bound ∈ max, minInterval ≤ bound) .invalidConfig
  setConfig fun c => { c with minCheckInInterval := some minInterval }

def setMaxCheckInInterval (maxInterval : Nat) : Contract Unit := do
  requireAdmin env
  require (maxInterval ≠ 0) .invalidConfig
  let min ← read (·.config.minCheckInInterval)
  require (∀ bound ∈ min, bound ≤ maxInterval) .invalidConfig
  setConfig fun c => { c with maxCheckInInterval := some maxInterval }

def setMaxTtlSeconds (maxTtl : Nat) : Contract Unit := do
  requireAdmin env
  require (maxTtl ≠ 0) .invalidInterval
  setConfig fun c => { c with maxTtlSeconds := some maxTtl }

def setTtlDecayRate (decayRate : Nat) : Contract Unit := do
  requireAdmin env
  require (decayRate ≠ 0 ∧ decayRate ≤ 10000) .invalidBps
  setConfig fun c => { c with ttlDecayRate := some decayRate }

def setMinCheckinCooldown (cooldownSeconds : Nat) : Contract Unit := do
  requireAdmin env
  setConfig fun c => { c with minCheckInCooldown := some cooldownSeconds }

def setOwnerVaultLimit (limit : Nat) : Contract Unit := do
  requireAdmin env
  setConfig fun c => { c with ownerVaultLimit := limit }

def setBeneficiaryVaultLimit (limit : Nat) : Contract Unit := do
  requireAdmin env
  setConfig fun c => { c with beneficiaryVaultLimit := limit }

def proposeProtocolConfig (config : ProtocolConfig) : Contract Unit := do
  requireAdmin env
  require (∀ min ∈ config.minCheckInInterval, min ≠ 0) .invalidInterval
  require (∀ max ∈ config.maxCheckInInterval, max ≠ 0) .invalidInterval
  require (∀ min ∈ config.minCheckInInterval, ∀ max ∈ config.maxCheckInInterval, min ≤ max)
    .invalidInterval
  require (config.maxTtlSeconds ≠ 0) .invalidInterval
  require (config.ttlDecayRate ≤ 10000) .invalidBps
  setConfig fun c => { c with
    pendingProtocolConfig := some config, protocolConfigProposedAt := some env.now }

def applyProtocolConfig : Contract Unit := do
  requireAdmin env
  let pending ← read (·.config.pendingProtocolConfig)
  let config ← found pending .noPendingProtocolConfig
  let proposed ← read (·.config.protocolConfigProposedAt)
  let proposedAt ← found proposed .noPendingProtocolConfig
  let unlocksAt ← u64 (proposedAt + protocolConfigTimelock)
  require (unlocksAt ≤ env.now) .protocolConfigTimeLocked
  setConfig fun c => { c with
    minCheckInInterval := config.minCheckInInterval
    maxCheckInInterval := config.maxCheckInInterval
    maxTtlSeconds := some config.maxTtlSeconds
    ttlDecayRate := some config.ttlDecayRate
    pendingProtocolConfig := none
    protocolConfigProposedAt := none }

/-! ### Tokens and the administrator -/

def whitelistToken (token : Address) : Contract Unit := do
  requireAdmin env
  setConfig fun c => { c with tokenWhitelist := update c.tokenWhitelist token true }

def removeTokenWhitelist (token : Address) : Contract Unit := do
  requireAdmin env
  setConfig fun c => { c with tokenWhitelist := update c.tokenWhitelist token false }

def registerWrappedToken (wrapped canonical : Address) : Contract Unit := do
  requireAdmin env
  require (wrapped ≠ canonical) .invalidAmount
  assertTokenWhitelisted canonical
  setConfig fun c => { c with wrappedToken := update c.wrappedToken wrapped canonical }

def unregisterWrappedToken (wrapped : Address) : Contract Unit := do
  requireAdmin env
  setConfig fun c => { c with wrappedToken := update c.wrappedToken wrapped none }

/-- `propose_admin`, and `propose_new_admin`, which it calls. -/
def proposeAdmin (newAdmin : Address) : Contract Unit := do
  requireAdmin env
  setConfig fun c => { c with
    pendingAdmin := some newAdmin, adminTransferProposedAt := some env.now }

def acceptAdmin : Contract Unit := do
  let proposed ← read (·.config.pendingAdmin)
  let pending ← found proposed .noPendingAdmin
  requireAuth env pending
  let proposedAt ← read (·.config.adminTransferProposedAt)
  let unlocksAt ← u64 (proposedAt.getD 0 + adminTransferTimelock)
  require (unlocksAt ≤ env.now) .adminTransferTimeLocked
  setConfig fun c => { c with
    admin := some pending, pendingAdmin := none, adminTransferProposedAt := none }

/-! ### Sanctions screening -/

/-- `aml::require_admin`: the caller names themself as the administrator. -/
def requireCallerAdmin : Contract Unit := do
  requireAuth env caller
  let admin ← loadAdmin
  require (caller = admin) .notAdmin

def requireAdminOrReporter : Contract Unit := do
  requireAuth env caller
  let admin ← loadAdmin
  let reporter ← read (·.compliance.amlReporter)
  require (caller = admin ∨ reporter = some caller) .notAdmin

def setAmlOracle (admin : Address) (oracle : Option Address) : Contract Unit := do
  requireCallerAdmin env admin
  setCompliance fun c => { c with amlOracle := oracle }

def setAmlReporter (admin : Address) (reporter : Option Address) : Contract Unit := do
  requireCallerAdmin env admin
  setCompliance fun c => { c with amlReporter := reporter }

def flagAmlAddress : Contract Unit := do
  requireAdminOrReporter env caller
  setCompliance fun c => { c with amlFlag := update c.amlFlag address true }

def unflagAmlAddress : Contract Unit := do
  requireAdminOrReporter env caller
  setCompliance fun c => { c with amlFlag := update c.amlFlag address false }

/-! ### Published policies -/

/-- The version in force at a time: the latest effective date, the later version among equals. -/
def activePolicy (timestamp : Nat) : List Policy → Option Policy → Option Policy
  | [], best => best
  | policy :: rest, best =>
    if policy.effectiveFrom ≤ timestamp ∧
        ∀ earlier ∈ best, earlier.effectiveFrom ≤ policy.effectiveFrom then
      activePolicy timestamp rest (some policy)
    else activePolicy timestamp rest best

def getPolicyVersion (timestamp : Nat) : Contract Policy := do
  let policies ← read (·.compliance.policies)
  found (activePolicy timestamp policies none) .policyVersionNotFound

/-- `compliance_policy::append`: the version is the position in the list. -/
def appendPolicy (policy : Policy) : Contract Unit :=
  setCompliance fun c => { c with
    policies := c.policies ++ [{ policy with version := c.policies.length + 1 }] }

/-- What `set_reporting_thresholds` accepts. -/
def ThresholdConfig.valid (config : ThresholdConfig) : Prop :=
  0 ≤ config.singleTxThreshold ∧ 0 ≤ config.cumulativeThreshold ∧
    ¬ (0 < config.cumulativeThreshold ∧ config.windowSeconds = 0)

instance (config : ThresholdConfig) : Decidable config.valid :=
  inferInstanceAs (Decidable (0 ≤ config.singleTxThreshold ∧ 0 ≤ config.cumulativeThreshold ∧
    ¬ (0 < config.cumulativeThreshold ∧ config.windowSeconds = 0)))

/-- `record_live_change`: the live configuration becomes a version that is already applied. -/
def recordLiveChange : Contract Unit := do
  let live ← read State.compliance
  appendPolicy
    { version := 0, effectiveFrom := env.now
      kycHighValueThreshold := live.kycHighValueThreshold
      allowlistEnforced := live.allowlistEnforced
      reportingThresholds := live.thresholdConfig }
  setCompliance fun c => { c with appliedPolicy := c.policies.length }

def syncActivePolicy : Contract Unit := do
  let compliance ← read State.compliance
  match activePolicy env.now compliance.policies none with
  | none => pure ()
  | some active =>
    if active.version = compliance.appliedPolicy then pure ()
    else do
      require (0 ≤ active.kycHighValueThreshold) .invalidAmount
      require (∀ config ∈ active.reportingThresholds, config.valid) .invalidConfig
      setCompliance fun c => { c with
        kycHighValueThreshold := active.kycHighValueThreshold
        allowlistEnforced := active.allowlistEnforced
        thresholdConfig := active.reportingThresholds
        appliedPolicy := active.version }

def publishCompliancePolicy (kycHighValueThreshold : Int) (allowlistEnforced : Bool)
    (reportingThresholds : Option ThresholdConfig) (effectiveFrom : Nat) : Contract Unit := do
  requireAdmin env
  require (env.now ≤ effectiveFrom) .invalidEffectiveDate
  require (0 ≤ kycHighValueThreshold) .invalidAmount
  require (∀ config ∈ reportingThresholds, config.valid) .invalidConfig
  appendPolicy
    { version := 0, effectiveFrom, kycHighValueThreshold, allowlistEnforced, reportingThresholds }
  syncActivePolicy env

def syncCompliancePolicy : Contract Unit := syncActivePolicy env

/-! ### Blacklist, allowlist and verification -/

def blacklistAddress (reason : String) : Contract Unit := do
  requireAdmin env
  require (reason.utf8ByteSize ≠ 0 ∧ reason.utf8ByteSize ≤ maxReasonLen) .invalidBlacklistReason
  setCompliance fun c => { c with blacklist := update c.blacklist address true }

def removeFromBlacklist : Contract Unit := do
  requireAdmin env
  setCompliance fun c => { c with blacklist := update c.blacklist address false }

def addToAllowlist : Contract Unit := do
  requireAdmin env
  setCompliance fun c => { c with allowlist := update c.allowlist address true }

def removeFromAllowlist : Contract Unit := do
  requireAdmin env
  setCompliance fun c => { c with allowlist := update c.allowlist address false }

def setAllowlistEnforced (enforced : Bool) : Contract Unit := do
  requireAdmin env
  setCompliance fun c => { c with allowlistEnforced := enforced }
  recordLiveChange env

def setKycProvider (provider : Address) : Contract Unit := do
  requireAdmin env
  setCompliance fun c => { c with kycProvider := some provider }

def requireKycProvider : Contract Address := do
  let stored ← read (·.compliance.kycProvider)
  let provider ← found stored .kycProviderNotSet
  requireAuth env provider
  pure provider

def emptyReference : Hash := List.replicate 32 0

/-- `verify_kyc`; rejected data is answered with `false` and stores nothing. -/
def verifyKyc (data : KycData) : Contract Unit := do
  let provider ← requireKycProvider env
  if data.level = 0 ∨ data.expiresAt ≤ env.now ∨ data.providerReference = emptyReference then
    pure ()
  else
    setCompliance fun c => { c with
      kyc := update c.kyc address (some
        { status := .verified, level := data.level, providerReference := data.providerReference
          verifiedBy := provider, verifiedAt := env.now, expiresAt := data.expiresAt }) }

def revokeKycRecord : Contract Unit := do
  let stored ← read (·.compliance.kyc address)
  let record ← found stored .kycNotFound
  setCompliance fun c => { c with
    kyc := update c.kyc address (some { record with status := .revoked }) }

def revokeKyc : Contract Unit := do
  let _ ← requireKycProvider env
  revokeKycRecord address

def adminRevokeKyc : Contract Unit := do
  requireAdmin env
  revokeKycRecord address

def setKycHighValueThreshold (amount : Int) : Contract Unit := do
  requireAdmin env
  require (0 ≤ amount) .invalidAmount
  setCompliance fun c => { c with kycHighValueThreshold := amount }
  recordLiveChange env

def setReportingThresholds (config : ThresholdConfig) : Contract Unit := do
  requireAdmin env
  require config.valid .invalidConfig
  setCompliance fun c => { c with thresholdConfig := some config }
  recordLiveChange env

end EthosContracts.TtlVault
