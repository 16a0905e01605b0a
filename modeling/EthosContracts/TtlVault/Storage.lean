/-
**Shared accessors and checks of the `ttl_vault` contract.**

The helpers of `passkeys_and_recovery.rs` that every entry point is written with, the screening
predicates of `aml.rs` and `compliance.rs`, the token whitelist of `admin.rs`, `is_expired` and the
scheduled beneficiary rotation, which several entry points apply. A vault stored compressed is the
same vault here.
-/

import EthosContracts.TtlVault.State

namespace EthosContracts.TtlVault

open Lib Function

/-! ### Configuration -/

def assertNotPaused : Contract Unit := do
  let paused ← read (·.config.paused)
  require (paused = false) .paused

def loadAdmin : Contract Address := do
  let admin ← read (·.config.admin)
  found admin .notInitialized

variable (env : Env) (s : State) (address owner beneficiary : Address) (id : VaultId)

def requireAdmin : Contract Unit := do
  let admin ← loadAdmin
  requireAuth env admin

def requireInitialized : Contract Unit := do
  let admin ← read (·.config.admin)
  require (admin.isSome) .notInitialized

def loadToken : Contract Address := do
  let token ← read (·.config.tokenAddress)
  found token .notInitialized

def getMaxTtlSeconds : Nat := s.config.maxTtlSeconds.getD 315360000

def assertIntervalInBounds (interval : Nat) : Contract Unit := do
  let min ← read (·.config.minCheckInInterval)
  require (∀ bound ∈ min, bound ≤ interval) .intervalTooLow
  let max ← read (·.config.maxCheckInInterval)
  require (∀ bound ∈ max, interval ≤ bound) .intervalTooHigh

/-- `is_token_whitelisted`, from the default token. -/
def isTokenWhitelisted (defaultToken token : Address) : Bool :=
  token = defaultToken || s.config.tokenWhitelist token ||
    match s.config.wrappedToken token with
    | some canonical => canonical = defaultToken || s.config.tokenWhitelist canonical
    | none => false

def assertTokenWhitelisted (token : Address) : Contract Unit := do
  let defaultToken ← loadToken
  let whitelisted ← read (isTokenWhitelisted · defaultToken token)
  require (whitelisted = true) .tokenNotWhitelisted

/-! ### Screening -/

/-- `check_address`: not blacklisted and, in allowlist mode, allowlisted. -/
def isAddressCompliant : Bool :=
  !s.compliance.blacklist address &&
    (!s.compliance.allowlistEnforced || s.compliance.allowlist address)

def assertNotBlacklisted : Contract Unit := do
  let blacklisted ← read (·.compliance.blacklist address)
  require (blacklisted = false) .addressBlacklisted

/-- `assert_compliant`; the blacklist takes precedence over the allowlist. -/
def assertCompliant : Contract Unit := do
  assertNotBlacklisted address
  let compliant ← read (isAddressCompliant · address)
  require (compliant = true) .addressNotAllowlisted

def isKycVerified : Bool :=
  match s.compliance.kyc address with
  | some record => record.status = .verified ∧ env.now < record.expiresAt
  | none => false

/-- `check_kyc_for_amount` as a predicate. -/
def kycAllows (amount : Int) : Bool :=
  !(0 < s.compliance.kycHighValueThreshold ∧ s.compliance.kycHighValueThreshold ≤ amount) ||
    isKycVerified env s address

def checkKycForAmount (amount : Int) : Contract Unit := do
  let allowed ← read (kycAllows env · address amount)
  require (allowed = true) .kycRequired

/-- `aml::check_compliance`. -/
def checkCompliance : Bool :=
  !s.compliance.amlFlag address &&
    match s.compliance.amlOracle with
    | some oracle => !env.oracleFlags oracle address
    | none => true

/-- `aml::require_compliant`. -/
def requireAmlCompliant : Contract Unit := do
  let compliant ← read (checkCompliance env · address)
  require (compliant = true) .amlFlaggedAddress

/-! ### Vaults and their indexes -/

def loadVault : Contract Vault := do
  let vault ← read (·.vaults id)
  found vault .vaultNotFound

/-- The vault, for a caller who authorised the call and must be its owner. -/
def loadOwned (caller : Address) : Contract Vault := do
  requireAuth env caller
  let vault ← loadVault id
  require (caller = vault.owner) .notOwner
  pure vault

/-- As `loadOwned`, for a vault that must be `Locked`. -/
def loadOwnedLocked (caller : Address) : Contract Vault := do
  let vault ← loadOwned env id caller
  require (vault.status = .locked) .alreadyReleased
  pure vault

def saveVault (vault : Vault) : Contract Unit :=
  write fun s => { s with vaults := update s.vaults id (some vault) }

def addOwnerVaultId : Contract Unit :=
  write fun s => { s with
    index.ownerVaults := update s.index.ownerVaults owner (s.index.ownerVaults owner ++ [id]) }

def removeOwnerVaultId : Contract Unit :=
  write fun s => { s with
    index.ownerVaults := update s.index.ownerVaults owner
      ((s.index.ownerVaults owner).filter (· ≠ id)) }

def addBeneficiaryVaultId : Contract Unit :=
  write fun s => { s with
    index.beneficiaryVaults := update s.index.beneficiaryVaults beneficiary
      (s.index.beneficiaryVaults beneficiary ++ [id]) }

def removeBeneficiaryVaultId : Contract Unit :=
  write fun s => { s with
    index.beneficiaryVaults := update s.index.beneficiaryVaults beneficiary
      ((s.index.beneficiaryVaults beneficiary).filter (· ≠ id)) }

def setVaultDuplicate (interval : Nat) (entry : Option VaultId) : Contract Unit :=
  write fun s => { s with
    index.vaultDuplicate := fun o b i => if o = owner ∧ b = beneficiary ∧ i = interval then entry
      else s.index.vaultDuplicate o b i }

def assertBeneficiaryCapacity : Contract Unit := do
  let limit ← read (·.config.beneficiaryVaultLimit)
  let ids ← read (·.index.beneficiaryVaults beneficiary)
  require (limit = 0 ∨ ids.length < limit) .beneficiaryCapacityExceeded

/-! ### Time -/

def Vault.deadline (vault : Vault) : Nat := vault.lastCheckIn + vault.checkInInterval

/-- The hibernated seconds that `is_expired` adds; `none` inside the window. -/
def hibernatedSeconds (entry : Option HibernationEntry) : Option Nat :=
  match entry with
  | some h =>
    if min (env.now - h.startedAt) h.durationSeconds < h.durationSeconds then none
    else some h.durationSeconds
  | none => some 0

def isExpired : Contract Bool := do
  let vault ← loadVault id
  let entry ← read (·.checkIns.hibernation id)
  match hibernatedSeconds env entry with
  | none => pure false
  | some hibernated =>
    let deadline ← u64 vault.deadline
    let expiry ← u64 (deadline + hibernated)
    pure (expiry ≤ env.now)

/-! ### Scheduled beneficiary rotation -/

/-- The latest entry in force: the first among those with the greatest effective time. -/
def latestRotation (now : Nat) :
    List BeneficiaryRotationEntry → Option BeneficiaryRotationEntry →
      Option BeneficiaryRotationEntry
  | [], applied => applied
  | entry :: rest, applied =>
    if entry.effectiveTimestamp ≤ now ∧
        ∀ earlier ∈ applied, earlier.effectiveTimestamp < entry.effectiveTimestamp then
      latestRotation now rest (some entry)
    else latestRotation now rest applied

def rotatedBeneficiaries (now : Nat) (schedule : Option (List BeneficiaryRotationEntry))
    (current : List BeneficiaryEntry) : List BeneficiaryEntry :=
  match latestRotation now (schedule.getD []) none with
  | some rotation => if rotation.newBeneficiaries = [] then current else rotation.newBeneficiaries
  | none => current

def applyRotation (vault : Vault) : Contract Vault := do
  let schedule ← read (·.beneficiaries.rotationSchedule id)
  pure { vault with
    beneficiaries := rotatedBeneficiaries env.now schedule vault.beneficiaries }

end EthosContracts.TtlVault
