/-
**Withdrawals other than `withdraw`** (`withdrawals.rs`, `withdrawal_and_tokens.rs`, and the
approval workflow of `passkeys_and_recovery.rs`): of the owner, in two or three steps, and undone.
-/

import EthosContracts.TtlVault.Lifecycle

namespace EthosContracts.TtlVault

open Lib Function

variable (env : Env) (id : VaultId) (caller : Address)

/-! ### Owner withdrawals -/

def partialLiquidate (amount : Int) (percentageAllowed : Nat) : Contract Unit := do
  assertNotPaused
  require (0 < amount) .invalidAmount
  require (percentageAllowed ≠ 0 ∧ percentageAllowed ≤ 100) .invalidPercentage
  let vault ← loadVault id
  require (vault.isPaused = false) .paused
  requireAuth env vault.owner
  require (vault.status ≠ .emergencyFrozen) .vaultFrozen
  require (vault.status = .locked) .alreadyReleased
  -- the remaining time is read for the event, with plain arithmetic
  let _ ← u64 vault.deadline
  require (InI128 (vault.balance * percentageAllowed)) .liquidationExceedsLimit
  require (amount ≤ (vault.balance * percentageAllowed).tdiv 100) .liquidationExceedsLimit
  require (amount ≤ vault.balance) .insufficientBalance
  payOut env id vault.tokenAddress vault.owner amount
  let balance ← i128 (vault.balance - amount)
  saveVault id { vault with balance := balance }

/-- The first loop of `batch_withdraw`; every entry is checked against the state before the call. -/
def validateWithdrawals (entries : List (VaultId × Int)) : Contract Unit :=
  entries.forM fun entry => do
    withdrawalGuard env entry.1 caller entry.2 (0 < entry.2) .invalidAmount "Invalid amount"
    let vault ← loadVault entry.1
    withdrawalGuard env entry.1 caller entry.2 (caller = vault.owner) .notOwner "Not owner"
    withdrawalGuard env entry.1 caller entry.2 (vault.status = .locked) .alreadyReleased
      "Vault already released"
    withdrawalGuard env entry.1 caller entry.2 (entry.2 ≤ vault.balance) .insufficientBalance
      "Insufficient balance"

def applyWithdrawals (defaultToken : Address) (entries : List (VaultId × Int)) : Contract Unit :=
  entries.forM fun entry => do
    let vault ← loadVault entry.1
    withdrawalGuard env entry.1 caller entry.2 (vault.tokenAddress = defaultToken) .invalidAmount
      "Incompatible token"
    payOut env entry.1 defaultToken vault.owner entry.2
    let balance ← i128 (vault.balance - entry.2)
    saveVault entry.1 { vault with balance := balance }
    recordWithdrawalAudit env entry.1 caller entry.2 true ""

def batchWithdraw (vaultIds : List VaultId) (amounts : List Int) (caller : Address) : Contract Unit
    := do
  assertNotPaused
  require (vaultIds.length = amounts.length) .invalidAmount
  requireAuth env caller
  validateWithdrawals env caller (vaultIds.zip amounts)
  let defaultToken ← loadToken
  applyWithdrawals env caller defaultToken (vaultIds.zip amounts)

/-! ### Escrowed withdrawals -/

def createWithdrawalEscrow (amount : Int) (beneficiary caller : Address) : Contract Unit := do
  require (0 < amount) .invalidAmount
  let vault ← loadOwned env id caller
  require (amount ≤ vault.balance) .insufficientBalance
  write fun s => { s with
    withdrawals.escrow := update s.withdrawals.escrow id
      (some ⟨id, amount, env.now, beneficiary, false⟩) }

def verifyWithdrawalEscrow : Contract Unit := do
  requireAuth env caller
  let vault ← loadVault id
  let stored ← read (·.withdrawals.escrow id)
  let escrow ← found stored .vaultNotFound
  require (caller = escrow.beneficiary) .notBeneficiary
  require (escrow.verified = false) .invalidAmount
  requireAmlCompliant env escrow.beneficiary
  payOut env id vault.tokenAddress escrow.beneficiary escrow.amount
  let balance ← i128 (vault.balance - escrow.amount)
  saveVault id { vault with balance := balance }
  write fun s => { s with
    withdrawals.escrow := update s.withdrawals.escrow id none }

/-! ### Approved withdrawals -/

def setApprovalRequest (request : Option WithdrawalApprovalRequest) : Contract Unit :=
  write fun s => { s with
    withdrawals.approvalRequest :=
      update s.withdrawals.approvalRequest id request }

def requestWithdrawalApproval (amount : Int) (approvers : List Address) (requiredApprovals : Nat) :
    Contract Unit := do
  let _ ← loadOwned env id caller
  require (0 < amount) .invalidAmount
  require (requiredApprovals ≠ 0 ∧ requiredApprovals ≤ approvers.length) .invalidThreshold
  let expiresAt ← u64 (env.now + 604800)
  setApprovalRequest id (some ⟨amount, env.now, [], requiredApprovals, expiresAt⟩)
  write fun s => { s with
    withdrawals.approvers := update s.withdrawals.approvers id (some approvers) }

def approveWithdrawal : Contract Unit := do
  requireAuth env caller
  let storedApprovers ← read (·.withdrawals.approvers id)
  let approvers ← found storedApprovers .withdrawalNotApproved
  require (caller ∈ approvers) .notASigner
  let stored ← read (·.withdrawals.approvalRequest id)
  let request ← found stored .withdrawalNotApproved
  require (env.now ≤ request.expiresAt) .proposalExpired
  require (caller ∉ request.approvals) .alreadyApproved
  setApprovalRequest id (some { request with approvals := request.approvals ++ [caller] })

/-- Anyone may execute an approved request; neither its expiry nor the status is checked here. -/
def executeApprovedWithdrawal : Contract Unit := do
  let stored ← read (·.withdrawals.approvalRequest id)
  let request ← found stored .withdrawalNotApproved
  require (request.requiredApprovals ≤ request.approvals.length) .proposalNotApproved
  let vault ← loadVault id
  require (request.amount ≤ vault.balance) .insufficientBalance
  payOut env id vault.tokenAddress vault.owner request.amount
  let balance ← i128 (vault.balance - request.amount)
  saveVault id { vault with balance := balance }
  setApprovalRequest id none

/-! ### Undoing a withdrawal -/

def rollbackWithdrawal (rollbackAmount : Int) (caller : Address) : Contract Unit := do
  require (0 < rollbackAmount) .invalidAmount
  let vault ← loadOwned env id caller
  let balance ← i128 (vault.balance + rollbackAmount)
  saveVault id { vault with balance := balance }

def reverseWithdrawal (withdrawalId : Nat) : Contract Unit := do
  assertNotPaused
  let vault ← loadOwned env id caller
  let stored ← read (·.withdrawals.reversal id withdrawalId)
  let reversal ← found stored .vaultNotFound
  require (reversal.reversed = false) .withdrawalAlreadyReversed
  require (env.now ≤ reversal.gracePeriodUntil) .withdrawalReversalGracePeriodExpired
  let balance ← i128 (vault.balance + reversal.amount)
  saveVault id { vault with balance := balance }
  write fun s => { s with
    withdrawals.reversal := update s.withdrawals.reversal id
      (update (s.withdrawals.reversal id) withdrawalId (some { reversal with reversed := true })) }

/-! ### Limits and destinations -/

def setWithdrawalLimits (dailyLimit weeklyLimit monthlyLimit : Int) : Contract Unit := do
  assertNotPaused
  let _ ← loadOwned env id caller
  write fun s => { s with
    withdrawals.limit := update s.withdrawals.limit id
      (some ⟨dailyLimit, weeklyLimit, monthlyLimit⟩) }

def addWhitelistAddress (address : Address) (label : String) : Contract Unit := do
  assertNotPaused
  let _ ← loadOwned env id caller
  write fun s => { s with
    withdrawals.whitelist := update s.withdrawals.whitelist id
      (some ((s.withdrawals.whitelist id).getD [] ++ [⟨address, env.now, label⟩])) }

/-- Removing from an absent whitelist leaves it absent. -/
def removeWhitelistAddress (address : Address) : Contract Unit := do
  assertNotPaused
  let _ ← loadOwned env id caller
  write fun s => { s with
    withdrawals.whitelist := update s.withdrawals.whitelist id
      ((s.withdrawals.whitelist id).map (·.filter (·.address ≠ address))) }

end EthosContracts.TtlVault
