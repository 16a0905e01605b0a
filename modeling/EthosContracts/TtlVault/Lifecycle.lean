/-
**Creating, feeding and emptying a vault** (`vault_lifecycle.rs`): the entry points, guard by guard
in the source's order, with the helpers of `withdrawal_and_tokens.rs` that `withdraw` goes through.
-/

import EthosContracts.TtlVault.Storage

namespace EthosContracts.TtlVault

open Lib Function

/-! ### Creation -/

def newVault (owner beneficiary token : Address) (interval now : Nat) : Vault where
  owner := owner
  beneficiary := beneficiary
  balance := 0
  checkInInterval := interval
  lastCheckIn := now
  createdAt := now
  status := .locked
  beneficiaries := []
  metadata := ""
  tokenAddress := token
  customMetadata := []
  isPaused := false
  releaseCondition := .ttlExpiry
  parentVaultId := none
  passkeyHash := none
  maxDepositAmount := none
  withdrawalApprovalThreshold := none
  spendingLimit := none
  inactivityPenaltyBps := none
  burnPercentage := 0
  penaltyRecipient := none

def chooseToken (requested : Option Address) : Contract Address :=
  match requested with
  | some token => do
    assertTokenWhitelisted token
    pure token
  | none => loadToken

variable (env : Env) (s : State) (id : VaultId) (vault : Vault) (passkeyHash : Hash)

/-- The empty passkey and backup code lists that a new vault starts with. -/
def initPasskeys : Contract Unit :=
  write fun s => { s with
    checkIns.vaultPasskeys := update s.checkIns.vaultPasskeys id []
    checkIns.backupCodes := update s.checkIns.backupCodes id (some []) }

def assertOwnerCapacity (owner : Address) : Contract Unit := do
  let limit ← read (·.config.ownerVaultLimit)
  let ids ← read (·.index.ownerVaults owner)
  require (limit = 0 ∨ ids.length < limit) .vaultCapacityExceeded

def createVault (owner beneficiary : Address) (checkInInterval : Nat)
    (tokenAddress : Option Address) : Contract VaultId := do
  requireAuth env owner
  requireInitialized
  let admin ← loadAdmin
  require (owner ≠ admin) .adminCannotOwnVault
  assertNotBlacklisted owner
  require (checkInInterval ≠ 0) .invalidInterval
  assertIntervalInBounds checkInInterval
  require (owner ≠ beneficiary) .invalidBeneficiary
  requireAmlCompliant env beneficiary
  assertCompliant owner
  assertCompliant beneficiary
  let duplicate ← read (·.index.vaultDuplicate owner beneficiary checkInInterval)
  require (duplicate.isNone) .duplicateVault
  assertOwnerCapacity owner
  assertBeneficiaryCapacity beneficiary
  let token ← chooseToken tokenAddress
  let count ← read (·.vaultCount)
  let id ← u64 (count + 1)
  saveVault id (newVault owner beneficiary token checkInInterval env.now)
  addOwnerVaultId owner id
  addBeneficiaryVaultId beneficiary id
  initPasskeys id
  write fun s => { s with vaultCount := id }
  setVaultDuplicate owner beneficiary checkInInterval (some id)
  pure id

/-! ### Check-in -/

def isCheckInDelegate (address : Address) : Bool :=
  address ∈ s.checkIns.checkInDelegates id

def isValidPasskeyDelegate (address : Address) : Bool :=
  match s.checkIns.passkeyDelegation id passkeyHash with
  | some delegation => delegation.delegate = address ∧ env.now < delegation.expiresAt
  | none => false

def passkeyRegistered : Bool :=
  match s.checkIns.vaultPasskeys id with
  | [] => ∀ primary ∈ vault.passkeyHash, primary = passkeyHash
  | passkeys => passkeys.any fun passkey => passkey.hash = passkeyHash

def validatePasskeyForCheckin : Contract Unit := do
  let registered ← read (passkeyRegistered · id vault passkeyHash)
  require (registered = true) .invalidPasskey
  let compromised ← read (·.checkIns.compromisedPasskeys id)
  require (passkeyHash ∉ compromised) .passkeyCompromised
  let escrow ← read (·.checkIns.passkeyEscrow id passkeyHash)
  require (escrow.isNone) .passkeyInEscrow
  let expiry ← read (·.checkIns.passkeyExpiry id passkeyHash)
  require (∀ time ∈ expiry, env.now ≤ time) .passkeyExpired

def useDelegateNonce (caller : Address) (nonce : Nat) : Contract Unit := do
  let expected ← read (·.checkIns.delegateNonce id caller)
  require (nonce = expected) .invalidNonce
  let next ← u64 (expected + 1)
  write fun s => { s with
    checkIns.delegateNonce := update s.checkIns.delegateNonce id
      (update (s.checkIns.delegateNonce id) caller next) }

def assertCheckInCooldown : Contract Unit := do
  let cooldown ← read (·.config.minCheckInCooldown)
  let last ← read (·.checkIns.lastCheckInTime id)
  match last with
  | some last =>
    if 0 < cooldown.getD 60 then do
      let earliest ← u64 (last + cooldown.getD 60)
      require (earliest ≤ env.now) .invalidInterval
    else pure ()
  | none => pure ()

/-- The penalty for missed intervals, deducted at the next check-in. -/
def applyInactivityPenalty (originalLastCheckIn : Nat) : Contract Vault :=
  match vault.inactivityPenaltyBps, vault.penaltyRecipient with
  | some penaltyBps, some recipient => do
    ensure (vault.checkInInterval ≠ 0) .divisionByZero
    let missed := (env.now - originalLastCheckIn) / vault.checkInInterval - 1
    if 0 < missed ∧ 0 < vault.balance then do
      let scaled ← i128 (vault.balance * penaltyBps)
      let penalty ← i128 (scaled.tdiv 10000 * missed)
      if 0 < min penalty vault.balance then do
        requireAmlCompliant env recipient
        payOut env id vault.tokenAddress recipient (min penalty vault.balance)
        pure { vault with balance := vault.balance - min penalty vault.balance }
      else pure vault
    else pure vault
  | _, _ => pure vault

/-- The new deadline must not lie beyond the maximal time to live. -/
def assertWithinMaxTtl (interval : Nat) : Contract Unit := do
  let maxTtl ← read getMaxTtlSeconds
  let deadline ← u64 (env.now + interval)
  let maxDeadline ← u64 (env.now + maxTtl)
  require (deadline ≤ maxDeadline) .maxTtlExceeded

def setLastCheckInTime (time : Nat) : Contract Unit :=
  write fun s => { s with
    checkIns.lastCheckInTime := update s.checkIns.lastCheckInTime id (some time) }

/-- The second half of `check_in`, after the caller's authority is established. -/
def recordCheckIn : Contract Unit := do
  require (vault.status = .locked) .alreadyReleased
  assertCheckInCooldown env id
  validatePasskeyForCheckin env id vault passkeyHash
  let rotated ← applyRotation env id { vault with lastCheckIn := env.now }
  let charged ← applyInactivityPenalty env id rotated vault.lastCheckIn
  assertWithinMaxTtl env vault.checkInInterval
  saveVault id charged
  setLastCheckInTime id env.now

def checkIn (caller : Address) (passkeyHash : Hash) (nonce : Nat) : Contract Unit := do
  assertNotPaused
  requireAuth env caller
  let vault ← loadVault id
  require (vault.isPaused = false) .paused
  let delegate ← read (isCheckInDelegate · id caller)
  let passkeyDelegate ← read (isValidPasskeyDelegate env · id passkeyHash caller)
  require (caller = vault.owner ∨ delegate = true ∨ passkeyDelegate = true) .notOwner
  if caller ≠ vault.owner ∧ delegate = true then useDelegateNonce id caller nonce
  else pure ()
  recordCheckIn env id vault passkeyHash

/-! ### Deposits -/

def checkedAdd (a b : Int) (code : ContractError) : Contract Int := do
  require (InI128 (a + b)) code
  pure (a + b)

def assertNotExpired : Contract Unit := do
  let deadline ← u64 vault.deadline
  require (env.now < deadline) .vaultExpired

def assertBelowDepositCap (amount : Int) : Contract Unit :=
  match vault.maxDepositAmount with
  | some maxDeposit => do
    let newBalance ← checkedAdd vault.balance amount .balanceOverflow
    require (newBalance ≤ maxDeposit) .depositLimitExceeded
  | none => pure ()

def deposit (sender : Address) (amount : Int) : Contract Unit := do
  assertNotPaused
  requireInitialized
  require (0 < amount) .invalidAmount
  requireAuth env sender
  let vault ← loadVault id
  require (sender = vault.owner) .unauthorizedDepositor
  assertNotBlacklisted sender
  require (vault.isPaused = false) .paused
  assertCompliant sender
  checkKycForAmount env sender amount
  require (vault.status = .locked) .alreadyReleased
  assertNotExpired env vault
  assertBelowDepositCap vault amount
  transfer vault.tokenAddress sender env.self amount
  let balance ← checkedAdd vault.balance amount .balanceOverflow
  saveVault id { vault with balance := balance }

/-- A deposit that the first loop of `batch_deposit` accepted, with its copy of the vault. -/
structure ValidatedDeposit where
  vaultId : VaultId
  vault : Vault
  amount : Int

/-- The first loop of `batch_deposit`: the accepted deposits and the total with `total` added. -/
def validateDeposits (env : Env) :
    List (VaultId × Int) → Int → Contract (List ValidatedDeposit × Int)
  | [], total => pure ([], total)
  | (id, amount) :: rest, total => do
    require (0 < amount) .invalidAmount
    let vault ← loadVault id
    require (vault.status = .locked) .alreadyReleased
    assertNotExpired env vault
    assertTokenWhitelisted vault.tokenAddress
    let total ← checkedAdd total amount .invalidAmount
    let validated ← validateDeposits env rest total
    pure (⟨id, vault, amount⟩ :: validated.1, validated.2)

/-- The second loop of `batch_deposit`: it writes the first loop's copies back. -/
def applyDeposits (defaultToken : Address) (validated : List ValidatedDeposit) : Contract Unit :=
  validated.forM fun entry => do
    require (entry.vault.tokenAddress = defaultToken) .invalidAmount
    let balance ← checkedAdd entry.vault.balance entry.amount .balanceOverflow
    saveVault entry.vaultId { entry.vault with balance := balance }

def batchDeposit (sender : Address) (deposits : List (VaultId × Int)) : Contract Unit := do
  assertNotPaused
  requireAuth env sender
  let defaultToken ← loadToken
  let validated ← validateDeposits env deposits 0
  if validated.2 = 0 then pure ()
  else do
    transfer defaultToken sender env.self validated.2
    applyDeposits defaultToken validated.1

/-! ### Withdrawal -/

/-- One window of a withdrawal tracker, emptied when its period has passed. -/
def resetWindow (now period : Nat) (withdrawn : Int) (resetAt : Nat) : Contract (Int × Nat) :=
  if resetAt ≤ now then do
    let next ← u64 (now + period)
    pure (0, next)
  else pure (withdrawn, resetAt)

def loadWithdrawalTracker : Contract WithdrawalTracker := do
  let tracker ← read (·.withdrawals.tracker id)
  match tracker with
  | some tracker => pure tracker
  | none => do
    let daily ← u64 (env.now + 86400)
    let weekly ← u64 (env.now + 604800)
    let monthly ← u64 (env.now + 2592000)
    pure ⟨0, daily, 0, weekly, 0, monthly⟩

def checkWithdrawalLimits (amount : Int) : Contract Unit := do
  let limits ← read (·.withdrawals.limit id)
  match limits with
  | some limits => do
    let tracker ← loadWithdrawalTracker env id
    let daily ← resetWindow env.now 86400 tracker.dailyWithdrawn tracker.dailyResetAt
    let weekly ← resetWindow env.now 604800 tracker.weeklyWithdrawn tracker.weeklyResetAt
    let monthly ← resetWindow env.now 2592000 tracker.monthlyWithdrawn tracker.monthlyResetAt
    let dailyTotal ← i128 (daily.1 + amount)
    require (dailyTotal ≤ limits.dailyLimit) .dailyWithdrawalLimitExceeded
    let weeklyTotal ← i128 (weekly.1 + amount)
    require (weeklyTotal ≤ limits.weeklyLimit) .weeklyWithdrawalLimitExceeded
    let monthlyTotal ← i128 (monthly.1 + amount)
    require (monthlyTotal ≤ limits.monthlyLimit) .monthlyWithdrawalLimitExceeded
    write fun s => { s with
      withdrawals.tracker := update s.withdrawals.tracker id
        (some ⟨dailyTotal, daily.2, weeklyTotal, weekly.2, monthlyTotal, monthly.2⟩) }
  | none => pure ()

/-- No whitelist means that every address is allowed. -/
def isWhitelisted (address : Address) : Bool :=
  match s.withdrawals.whitelist id with
  | some whitelist => whitelist.any fun entry => entry.address = address
  | none => true

def recordWithdrawalForReversal (amount : Int) (gracePeriodSeconds : Nat) : Contract Unit := do
  let withdrawalId ← read (·.withdrawals.reversalCounter id)
  let gracePeriodUntil ← u64 (env.now + gracePeriodSeconds)
  let next ← u64 (withdrawalId + 1)
  write fun s => { s with
    withdrawals.reversal := update s.withdrawals.reversal id
      (update (s.withdrawals.reversal id) withdrawalId
        (some ⟨withdrawalId, amount, env.now, gracePeriodUntil, false⟩))
    withdrawals.reversalCounter :=
      update s.withdrawals.reversalCounter id next }

/-- Appends to the vault's audit log; the vault is loaded for the log's time to live. -/
def recordWithdrawalAudit (caller : Address) (amount : Int) (success : Bool) (errorReason : String) :
    Contract Unit := do
  let _ ← loadVault id
  write fun s => { s with
    withdrawals.auditLog := update s.withdrawals.auditLog id
      (s.withdrawals.auditLog id ++ [⟨id, caller, amount, env.now, success, errorReason⟩]) }

/-- Logs a refusal before returning its error. -/
def auditRefusal (caller : Address) (amount : Int) (errorReason : String) (check : Contract Unit) :
    Contract Unit := fun s =>
  match check s with
  | .ok a => .ok a
  | .error failure => (do
      recordWithdrawalAudit env id caller amount false errorReason
      fail failure : Contract Unit) s

def withdrawalGuard (caller : Address) (amount : Int) (condition : Prop) [Decidable condition]
    (code : ContractError) (errorReason : String) : Contract Unit :=
  auditRefusal env id caller amount errorReason (require condition code)

def withdraw (caller : Address) (amount : Int) : Contract Unit := do
  let paused ← read (·.config.paused)
  withdrawalGuard env id caller amount (paused = false) .paused "Contract paused"
  withdrawalGuard env id caller amount (0 < amount) .invalidAmount "Invalid amount"
  requireAuth env caller
  let vault ← loadVault id
  withdrawalGuard env id caller amount (vault.isPaused = false) .paused "Vault paused"
  withdrawalGuard env id caller amount (caller = vault.owner) .notOwner "Not owner"
  withdrawalGuard env id caller amount (vault.status ≠ .emergencyFrozen) .vaultFrozen "Vault frozen"
  withdrawalGuard env id caller amount (vault.status = .locked) .alreadyReleased
    "Vault already released"
  withdrawalGuard env id caller amount (vault.owner ≠ env.self) .invalidWithdrawDestination
    "Invalid withdraw destination"
  withdrawalGuard env id caller amount (amount ≤ vault.balance) .insufficientBalance
    "Insufficient balance"
  withdrawalGuard env id caller amount
    (∀ threshold ∈ vault.withdrawalApprovalThreshold, amount ≤ threshold) .withdrawalNotApproved
    "Withdrawal not approved"
  -- these two refusals are not logged
  checkWithdrawalLimits env id amount
  let whitelisted ← read (isWhitelisted · id vault.owner)
  require (whitelisted = true) .withdrawalDestinationNotWhitelisted
  auditRefusal env id caller amount "Compliance check failed" do
    assertCompliant vault.owner
    checkKycForAmount env vault.owner amount
  payOut env id vault.tokenAddress vault.owner amount
  let balance ← i128 (vault.balance - amount)
  recordWithdrawalForReversal env id amount 86400
  saveVault id { vault with balance := balance }
  recordWithdrawalAudit env id caller amount true ""

end EthosContracts.TtlVault
