/-
**Beneficiaries and their roles** (`beneficiaries.rs` and the beneficiary calls of `views.rs`).

Declining a role forfeits what is unvested where the owner configured that. The primary beneficiary
is changed in two steps.
-/

import EthosContracts.TtlVault.Release

namespace EthosContracts.TtlVault

open Lib Function

/-! ### The list of beneficiaries -/

/-- A `u32` sum of basis points, with plain arithmetic. -/
def sumBps (entries : List BeneficiaryEntry) : Contract Nat := do
  ensure ((entries.map (·.bps)).sum ≤ 2 ^ 32 - 1) .overflow
  pure (entries.map (·.bps)).sum

variable (env : Env) (id : VaultId) (caller : Address)

def setBeneficiaries (beneficiaries : List BeneficiaryEntry) : Contract Unit := do
  requireAuth env caller
  require (beneficiaries ≠ []) .invalidBps
  let vault ← loadOwnedLocked env id caller
  let total ← sumBps beneficiaries
  require (total = 10000) .invalidBps
  beneficiaries.forM fun entry => do
    require (entry.address ≠ vault.owner) .invalidBeneficiary
    requireAmlCompliant env entry.address
  saveVault id { vault with beneficiaries := beneficiaries }

def scheduleBeneficiaryRotation (effectiveTimestamp : Nat)
    (newBeneficiaries : List BeneficiaryEntry) : Contract Unit := do
  let vault ← loadOwnedLocked env id caller
  require (newBeneficiaries ≠ []) .invalidBps
  let total ← sumBps newBeneficiaries
  require (total = 10000) .invalidBps
  newBeneficiaries.forM fun entry => require (entry.address ≠ vault.owner) .invalidBeneficiary
  write fun s => { s with
    beneficiaries.rotationSchedule := update s.beneficiaries.rotationSchedule id
      (some ((s.beneficiaries.rotationSchedule id).getD [] ++
        [⟨effectiveTimestamp, newBeneficiaries⟩])) }

def addBeneficiary (address : Address) (percentage : Nat) : Contract Unit := do
  let vault ← loadOwnedLocked env id caller
  require (address ≠ vault.owner) .invalidBeneficiary
  requireAmlCompliant env address
  require (∀ entry ∈ vault.beneficiaries, entry.address ≠ address) .invalidBeneficiary
  let total ← sumBps vault.beneficiaries
  ensure (total + percentage ≤ 2 ^ 32 - 1) .overflow
  require (total + percentage ≤ 10000) .invalidBps
  saveVault id { vault with
    beneficiaries := vault.beneficiaries ++ [⟨address, percentage, 0⟩] }

def removeBeneficiary (address : Address) : Contract Unit := do
  let vault ← loadOwnedLocked env id caller
  require (∃ entry ∈ vault.beneficiaries, entry.address = address) .invalidBeneficiary
  saveVault id { vault with
    beneficiaries := vault.beneficiaries.filter (·.address ≠ address) }

def setBenMinThreshold (beneficiaryAddress : Address) (minimumThreshold : Int) : Contract Unit := do
  let vault ← loadOwnedLocked env id caller
  require (0 ≤ minimumThreshold) .invalidAmount
  require (∃ entry ∈ vault.beneficiaries, entry.address = beneficiaryAddress) .invalidBeneficiary
  saveVault id { vault with
    beneficiaries := vault.beneficiaries.map fun entry =>
      if entry.address = beneficiaryAddress then
        { entry with minimumThreshold := minimumThreshold }
      else entry }

/-- A listed beneficiary, in the checks of the next two calls. -/
def loadListed (beneficiary : Address) : Contract Unit := do
  let vault ← loadOwnedLocked env id caller
  require (∃ entry ∈ vault.beneficiaries, entry.address = beneficiary) .invalidBeneficiary

def setBeneficiaryReleaseTriggers (beneficiary : Address) (triggers : List ReleaseTrigger) :
    Contract Unit := do
  loadListed env id caller beneficiary
  require (triggers ≠ []) .invalidAmount
  write fun s => { s with
    beneficiaries.releaseTriggers := update s.beneficiaries.releaseTriggers id
      ((s.beneficiaries.releaseTriggers id).filter (·.1 ≠ beneficiary) ++
        [(beneficiary, triggers)]) }

def setBeneficiaryTierThreshold (beneficiary : Address) (tierThreshold : Int) : Contract Unit := do
  loadListed env id caller beneficiary
  require (0 ≤ tierThreshold) .invalidAmount
  write fun s => { s with
    beneficiaries.tierThreshold := update s.beneficiaries.tierThreshold id
      (update (s.beneficiaries.tierThreshold id) beneficiary tierThreshold) }

/-! ### Veto, acceptance, decline -/

def loadAsBeneficiary (code : ContractError) : Contract Vault := do
  requireAuth env caller
  let vault ← loadVault id
  require (caller = vault.beneficiary) code
  pure vault

def setReleaseConditionVeto (veto : Bool) : Contract Unit :=
  write fun s => { s with
    beneficiaries.releaseConditionVeto :=
      update s.beneficiaries.releaseConditionVeto id veto }

def vetoReleaseCondition : Contract Unit := do
  let _ ← loadAsBeneficiary env id caller .notBeneficiary
  let expired ← isExpired env id
  require (expired = false) .notExpired
  setReleaseConditionVeto id true

def revokeVetoReleaseCondition : Contract Unit := do
  let _ ← loadAsBeneficiary env id caller .notBeneficiary
  setReleaseConditionVeto id false

def setBeneficiaryStatus (status : BeneficiaryStatus) : Contract Unit :=
  write fun s => { s with
    beneficiaries.beneficiaryStatus :=
      update s.beneficiaries.beneficiaryStatus id (some status) }

def acceptBeneficiaryRole : Contract Unit := do
  let _ ← loadAsBeneficiary env id caller .notOwner
  setBeneficiaryStatus id .accepted

/-- What the first vesting schedule has not paid out, with plain arithmetic. -/
def unvestedAmount (schedule : VestingSchedule) : Contract Int := do
  let perInstallment ← i128Div schedule.totalAmount schedule.numInstallments
  let claimed ← i128 (perInstallment * schedule.claimedInstallments)
  i128 (schedule.totalAmount - claimed)

/-- The forfeiture of a declining beneficiary: the unvested rest goes to the recipient that the
owner configured, whatever the vault's status. -/
def forfeitUnvested (vault : Vault) : Contract Unit := do
  let config ← read (·.vesting.forfeiture id)
  let schedule ← read (·.vesting.schedule id 0)
  match config, schedule with
  | some config, some schedule =>
    if config.forfeited then pure ()
    else do
      let unvested ← unvestedAmount schedule
      if 0 < unvested then do
        requireAmlCompliant env config.forfeitureRecipient
        payOut env id vault.tokenAddress config.forfeitureRecipient unvested
        let balance ← i128 (vault.balance - unvested)
        write fun s => { s with
          vesting.forfeiture := update s.vesting.forfeiture id
            (some { config with forfeited := true }) }
        saveVault id { vault with balance := balance }
      else pure ()
  | _, _ => pure ()

def declineBeneficiaryRole : Contract Unit := do
  requireAuth env caller
  let vault ← loadVault id
  require (caller = vault.beneficiary ∨ ∃ entry ∈ vault.beneficiaries, entry.address = caller)
    .notBeneficiary
  write fun s => { s with
    beneficiaries.beneficiaryStatusEntry :=
      update s.beneficiaries.beneficiaryStatusEntry id
        (update (s.beneficiaries.beneficiaryStatusEntry id) caller (some .declined)) }
  if caller = vault.beneficiary ∧ vault.beneficiaries = [] then
    setBeneficiaryStatus id .declined
  else pure ()
  forfeitUnvested env id vault

/-! ### Changing the primary beneficiary -/

def updateBeneficiary (newBeneficiary : Address) : Contract Unit := do
  let vault ← loadOwned env id caller
  require (vault.status ≠ .emergencyFrozen) .vaultFrozen
  require (vault.status = .locked) .alreadyReleased
  require (vault.owner ≠ newBeneficiary) .invalidBeneficiary
  requireAmlCompliant env newBeneficiary
  let unlocksAt ← u64 (env.now + 86400)
  write fun s => { s with
    beneficiaries.pendingBeneficiaryUpdate :=
      update s.beneficiaries.pendingBeneficiaryUpdate id
        (some ⟨newBeneficiary, env.now, unlocksAt⟩) }

def moveBeneficiaryIndex (old new : Address) : Contract Unit :=
  if old ≠ new then do
    removeBeneficiaryVaultId old id
    addBeneficiaryVaultId new id
  else pure ()

/-- The second step checks the time lock only: neither the status nor the first step's checks. -/
def applyBeneficiaryUpdate : Contract Unit := do
  let vault ← loadOwned env id caller
  let stored ← read (·.beneficiaries.pendingBeneficiaryUpdate id)
  let pending ← found stored .noPendingAdmin
  require (pending.unlocksAt ≤ env.now) .ownershipTransferTimeLocked
  if vault.beneficiary ≠ pending.newBeneficiary then
    assertBeneficiaryCapacity pending.newBeneficiary
  else pure ()
  saveVault id { vault with beneficiary := pending.newBeneficiary }
  moveBeneficiaryIndex id vault.beneficiary pending.newBeneficiary
  write fun s => { s with
    beneficiaries.pendingBeneficiaryUpdate :=
      update s.beneficiaries.pendingBeneficiaryUpdate id none }

/-! ### Hidden beneficiaries -/

def commitBeneficiary (commitment : Hash) : Contract Unit := do
  let _ ← loadOwnedLocked env id caller
  let existing ← read (·.beneficiaries.commitment id)
  require (existing.isNone) .commitmentAlreadySet
  write fun s => { s with
    beneficiaries.commitment := update s.beneficiaries.commitment id (some ⟨commitment, env.now⟩) }

/-- The proof is compared with the commitment; the claimed address is not. -/
def revealBeneficiary (proof : Bytes) (claim : Address) : Contract Unit := do
  let stored ← read (·.beneficiaries.commitment id)
  let entry ← found stored .commitmentNotFound
  let revealed ← read (·.beneficiaries.revealedBeneficiary id)
  require (revealed.isNone) .beneficiaryAlreadyRevealed
  let vault ← loadVault id
  require (vault.status = .locked) .beneficiaryAlreadyRevealed
  let expired ← isExpired env id
  require (expired = true) .notExpired
  require (vault.balance ≠ 0) .emptyVault
  require (env.sha256 proof = entry.commitment) .invalidZkProof
  requireAmlCompliant env claim
  payOut env id vault.tokenAddress claim vault.balance
  saveVault id { vault with balance := 0, status := .released }
  write fun s => { s with
    beneficiaries.revealedBeneficiary :=
      update s.beneficiaries.revealedBeneficiary id (some claim) }

end EthosContracts.TtlVault
