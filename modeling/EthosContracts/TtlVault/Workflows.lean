/-
**Schedules, acceptance, votes and metadata versions** (`beneficiary_workflows.rs`).

Anyone may execute a scheduled payment to the beneficiary; the beneficiary's conditions are read by
a release.
-/

import EthosContracts.TtlVault.Settings

namespace EthosContracts.TtlVault

open Lib Function

variable (env : Env) (id : VaultId) (caller : Address)

/-! ### Scheduled withdrawals -/

def setWithdrawalSchedule (schedule : List (Nat × Int)) : Contract Unit := do
  assertNotPaused
  let vault ← loadVault id
  requireAuth env vault.owner
  require (∀ entry ∈ schedule, 0 < entry.2) .invalidAmount
  write fun s => { s with
    withdrawals.schedule := update s.withdrawals.schedule id
      (some (schedule.map fun entry => ⟨entry.1, entry.2⟩)) }

/-- An entry whose time has come and that has not been paid. -/
def WithdrawalScheduleEntry.due (now : Nat) (entry : WithdrawalScheduleEntry) : Bool :=
  entry.timestamp ≤ now ∧ 0 < entry.amount

/-- The loop of `execute_scheduled_withdrawal`: the schedule with the paid entries at zero, and the
balance left. No call writes the key `BeneficiaryDelegate` that could replace the payee. -/
def runSchedule (env : Env) (id : VaultId) (token payee : Address) :
    List WithdrawalScheduleEntry → Int → Contract (List WithdrawalScheduleEntry × Int)
  | [], balance => pure ([], balance)
  | entry :: rest, balance =>
    if entry.due env.now then do
      require (entry.amount ≤ balance) .insufficientBalance
      requireAmlCompliant env payee
      payOut env id token payee entry.amount
      let balance ← i128 (balance - entry.amount)
      let later ← runSchedule env id token payee rest balance
      pure (⟨entry.timestamp, 0⟩ :: later.1, later.2)
    else do
      let later ← runSchedule env id token payee rest balance
      pure (entry :: later.1, later.2)

def executeScheduledWithdrawal : Contract Unit := do
  assertNotPaused
  let vault ← loadVault id
  let stored ← read (·.withdrawals.schedule id)
  let schedule ← found stored .noScheduledWithdrawals
  let result ← runSchedule env id vault.tokenAddress vault.beneficiary schedule vault.balance
  require (schedule.any (·.due env.now) = true) .noScheduledWithdrawals
  saveVault id { vault with balance := result.2 }
  write fun s => { s with
    withdrawals.schedule := update s.withdrawals.schedule id (some result.1) }

/-! ### Acceptance -/

def setConditionalAcceptance (entry : ConditionalAcceptanceEntry) : Contract Unit :=
  write fun s => { s with
    beneficiaries.conditionalAcceptance :=
      update s.beneficiaries.conditionalAcceptance id (some entry) }

def acceptWithConditions (conditions : String) : Contract Unit := do
  assertNotPaused
  let vault ← loadVault id
  requireAuth env vault.beneficiary
  require (conditions ≠ "") .invalidAmount
  setConditionalAcceptance id ⟨conditions, false, none, none⟩

def approveConditionalAcceptance : Contract Unit := do
  assertNotPaused
  let vault ← loadVault id
  requireAuth env vault.owner
  let stored ← read (·.beneficiaries.conditionalAcceptance id)
  let entry ← found stored .invalidBeneficiary
  setConditionalAcceptance id { entry with approvedByOwner := true }

def setAcceptanceDeadline (deadlineTimestamp : Nat) : Contract Unit := do
  assertNotPaused
  let vault ← loadVault id
  requireAuth env vault.owner
  require (vault.status = .locked) .alreadyReleased
  let stored ← read (·.beneficiaries.conditionalAcceptance id)
  let entry ← found stored .invalidBeneficiary
  setConditionalAcceptance id { entry with acceptanceDeadline := some deadlineTimestamp }

def acceptWithThreshold (minBalanceThreshold : Int) : Contract Unit := do
  assertNotPaused
  let vault ← loadVault id
  requireAuth env vault.beneficiary
  require (0 < minBalanceThreshold) .invalidAmount
  write fun s => { s with
    beneficiaries.beneficiaryConditionalAcceptance :=
      update s.beneficiaries.beneficiaryConditionalAcceptance id
        (some ⟨minBalanceThreshold, env.now⟩) }

/-! ### Proof of life and votes -/

/-- The caller, authenticated, as one of the vault's beneficiaries. -/
def loadAsAnyBeneficiary : Contract Unit := do
  requireAuth env caller
  let vault ← loadVault id
  require (caller = vault.beneficiary ∨ ∃ entry ∈ vault.beneficiaries, entry.address = caller)
    .notBeneficiary

def submitProofOfLife (validityWindow : Nat) : Contract Unit := do
  loadAsAnyBeneficiary env id caller
  write fun s => { s with
    beneficiaries.proofOfLife := update s.beneficiaries.proofOfLife id
      (some ⟨caller, env.now, saturatingAdd env.now (min validityWindow 2592000)⟩) }

def setReleaseVoteThreshold (threshold : Nat) : Contract Unit := do
  let _ ← loadOwned env id caller
  write fun s => { s with
    beneficiaries.releaseVoteThreshold :=
      update s.beneficiaries.releaseVoteThreshold id
        (if threshold = 0 then none else some threshold) }

def castReleaseVote (approve : Bool) : Contract Unit := do
  requireAuth env caller
  let vault ← loadVault id
  let threshold ← read (·.beneficiaries.releaseVoteThreshold id)
  require (threshold.isSome) .votingNotEnabled
  require (caller = vault.beneficiary ∨ ∃ entry ∈ vault.beneficiaries, entry.address = caller)
    .notBeneficiary
  let votes ← read (·.beneficiaries.releaseVotes id)
  require (∀ vote ∈ votes, vote.voter ≠ caller) .votingNotEnabled
  write fun s => { s with
    beneficiaries.releaseVotes := update s.beneficiaries.releaseVotes id
      (votes ++ [⟨caller, approve, env.now⟩]) }

/-! ### Metadata versions -/

def updateMetadataVersioned (newMetadata : String) : Contract Unit := do
  requireAuth env caller
  require (newMetadata.utf8ByteSize ≤ 256) .invalidAmount
  let vault ← loadOwnedLocked env id caller
  let history ← read (·.index.metadataHistory id)
  write fun s => { s with
    index.metadataHistory := update s.index.metadataHistory id
      (history ++ [⟨history.length + 1, vault.metadata, env.now, caller⟩]) }
  saveVault id { vault with metadata := newMetadata }

def revertMetadata (version : Nat) : Contract Unit := do
  let vault ← loadOwnedLocked env id caller
  let history ← read (·.index.metadataHistory id)
  let entry ← found (history.find? (·.version = version)) .metadataVersionNotFound
  saveVault id { vault with metadata := entry.metadata }

end EthosContracts.TtlVault
