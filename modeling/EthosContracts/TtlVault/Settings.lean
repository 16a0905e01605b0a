/-
**The owner's settings, ownership, cancellation, cloning, merging and inheritance** (`views.rs`, the
metadata call of `beneficiaries.rs`, `clone_vault` and `merge_vaults`).

The settings are read later, by a release or a check-in. `createVaultFromInheritance` opens a vault
of the beneficiary of a released one.
-/

import EthosContracts.TtlVault.Beneficiaries

namespace EthosContracts.TtlVault

open Lib Function

variable (env : Env) (id : VaultId) (caller newOwner : Address)

/-! ### Settings of a release -/

def setSpendingLimit (limit : Option Int) : Contract Unit := do
  let vault ← loadVault id
  requireAuth env vault.owner
  require (∀ bound ∈ limit, 0 < bound) .invalidAmount
  saveVault id { vault with spendingLimit := limit }

def setBurnPercentage (percentage : Nat) : Contract Unit := do
  let vault ← loadVault id
  requireAuth env vault.owner
  require (percentage ≤ 10000) .invalidAmount
  saveVault id { vault with burnPercentage := percentage }

def setReleaseCondition (condition : ReleaseCondition) : Contract Unit := do
  let vault ← loadOwnedLocked env id caller
  saveVault id { vault with releaseCondition := condition }

def setReleaseConditions (conditions : List ReleaseCondition) : Contract Unit := do
  let _ ← loadOwnedLocked env id caller
  write fun s => { s with
    beneficiaries.releaseConditions :=
      update s.beneficiaries.releaseConditions id (some conditions) }

/-! ### Pause and metadata -/

def pauseVault : Contract Unit := do
  let vault ← loadOwnedLocked env id caller
  saveVault id { vault with isPaused := true }

def resumeVault : Contract Unit := do
  let vault ← loadOwnedLocked env id caller
  saveVault id { vault with isPaused := false }

def updateMetadata (metadata : String) : Contract Unit := do
  requireAuth env caller
  require (metadata.utf8ByteSize ≤ 256) .invalidAmount
  let vault ← loadOwnedLocked env id caller
  saveVault id { vault with metadata := metadata }

def setVaultMetadata (metadata : Bytes) : Contract Unit := do
  requireAuth env caller
  require (metadata.length ≤ 2048) .invalidAmount
  let enforced ← read (·.config.requireUtf8Metadata)
  require (enforced = false ∨ (ByteArray.mk metadata.toArray).validateUTF8 = true)
    .invalidMetadataEncoding
  let vault ← loadOwnedLocked env id caller
  saveVault id { vault with customMetadata := metadata }

/-! ### Ownership -/

def moveOwnerIndex (old new : Address) : Contract Unit :=
  if old ≠ new then do
    removeOwnerVaultId old id
    addOwnerVaultId new id
  else pure ()

def setPendingOwnership (request : Option OwnershipTransferRequest) : Contract Unit :=
  write fun s => { s with
    beneficiaries.pendingOwnership :=
      update s.beneficiaries.pendingOwnership id request }

def initiateOwnershipTransfer : Contract Unit := do
  assertNotPaused
  let vault ← loadOwnedLocked env id caller
  require (newOwner ≠ vault.beneficiary) .invalidBeneficiary
  require (newOwner ≠ vault.owner) .alreadyOwner
  let unlocksAt ← u64 (env.now + 86400)
  let expiresAt ← u64 (env.now + 604800)
  setPendingOwnership id (some ⟨newOwner, env.now, unlocksAt, expiresAt⟩)

def acceptOwnershipTransfer : Contract Unit := do
  assertNotPaused
  requireAuth env newOwner
  let stored ← read (·.beneficiaries.pendingOwnership id)
  let request ← found stored .noPendingOwnershipTransfer
  require (newOwner = request.newOwner) .notOwner
  require (request.unlocksAt ≤ env.now) .ownershipTransferTimeLocked
  require (env.now ≤ request.expiresAt) .ownershipTransferExpired
  let vault ← loadVault id
  require (vault.status = .locked) .alreadyReleased
  moveOwnerIndex id vault.owner newOwner
  saveVault id { vault with owner := newOwner }
  setPendingOwnership id none

def cancelOwnershipTransfer : Contract Unit := do
  requireAuth env caller
  let vault ← loadVault id
  let stored ← read (·.beneficiaries.pendingOwnership id)
  let request ← found stored .noPendingOwnershipTransfer
  require (caller = vault.owner ∨ caller = request.newOwner) .notOwner
  setPendingOwnership id none

def expireOwnershipTransfer : Contract Unit := do
  let stored ← read (·.beneficiaries.pendingOwnership id)
  let request ← found stored .noPendingOwnershipTransfer
  require (request.expiresAt < env.now) .notExpired
  setPendingOwnership id none

/-- The single-step transfer, kept by the source for compatibility. -/
def transferOwnership : Contract Unit := do
  assertNotPaused
  let vault ← loadOwnedLocked env id caller
  require (newOwner ≠ vault.beneficiary) .invalidBeneficiary
  moveOwnerIndex id vault.owner newOwner
  saveVault id { vault with owner := newOwner }

/-! ### Cancellation -/

def refundOwner (vault : Vault) : Contract Unit :=
  if 0 < vault.balance then payOut env id vault.tokenAddress vault.owner vault.balance
  else pure ()

def cancelVault : Contract Unit := do
  assertNotPaused
  let vault ← loadOwned env id caller
  require (vault.status ≠ .emergencyFrozen) .vaultFrozen
  require (vault.status = .locked) .alreadyReleased
  let multiSig ← read (·.multiSig.config id)
  require (multiSig.isNone) .multiSigRequired
  refundOwner env id vault
  saveVault id { vault with balance := 0, status := .cancelled }
  removeOwnerVaultId vault.owner id
  removeBeneficiaryVaultId vault.beneficiary id
  setVaultDuplicate vault.owner vault.beneficiary vault.checkInInterval none

/-! ### Cloning -/

def clonedVault (original : Vault) (sourceVaultId : VaultId) (newOwner newBeneficiary : Address)
    (now : Nat) : Vault :=
  { original with
    owner := newOwner
    beneficiary := newBeneficiary
    balance := 0
    lastCheckIn := now
    createdAt := now
    status := .locked
    isPaused := false
    parentVaultId := some sourceVaultId
    passkeyHash := none }

/-- Store a vault under the next identifier and enter it in the indexes. -/
def registerClone (clone : Vault) : Contract VaultId := do
  let count ← read (·.vaultCount)
  let id ← u64 (count + 1)
  saveVault id clone
  addOwnerVaultId clone.owner id
  addBeneficiaryVaultId clone.beneficiary id
  write fun s => { s with vaultCount := id }
  pure id

def cloneVault (sourceVaultId : VaultId) (newOwner newBeneficiary : Address) : Contract VaultId :=
    do
  let original ← loadOwnedLocked env sourceVaultId newOwner
  require (newOwner ≠ newBeneficiary) .invalidBeneficiary
  registerClone (clonedVault original sourceVaultId newOwner newBeneficiary env.now)

def overrideInterval (original : Nat) (requested : Option Nat) : Contract Nat :=
  match requested with
  | some interval => do
    require (interval ≠ 0) .invalidInterval
    assertIntervalInBounds interval
    pure interval
  | none => pure original

def overrideBeneficiaries (original : List BeneficiaryEntry)
    (requested : Option (List BeneficiaryEntry)) : Contract (List BeneficiaryEntry) :=
  match requested with
  | some entries => do
    if entries.isEmpty then pure ()
    else do
      let total ← sumBps entries
      require (total = 10000) .invalidBps
      entries.forM fun entry => require (entry.address ≠ newOwner) .invalidBeneficiary
    pure entries
  | none => pure original

def cloneVaultWithOverrides (sourceVaultId : VaultId) (newOwner newBeneficiary : Address)
    (interval : Option Nat) (beneficiaries : Option (List BeneficiaryEntry))
    (metadata : Option String) : Contract VaultId := do
  let original ← loadOwnedLocked env sourceVaultId newOwner
  require (newOwner ≠ newBeneficiary) .invalidBeneficiary
  let checkInInterval ← overrideInterval original.checkInInterval interval
  let entries ← overrideBeneficiaries newOwner original.beneficiaries beneficiaries
  require (∀ text ∈ metadata, text.utf8ByteSize ≤ 256) .invalidAmount
  registerClone
    { clonedVault original sourceVaultId newOwner newBeneficiary env.now with
      checkInInterval := checkInInterval
      beneficiaries := entries
      metadata := metadata.getD original.metadata }

/-! ### Merging -/

/-- The first loop of `merge_vaults`: every source is checked against the state before the call. -/
def validateSources (targetVaultId : VaultId) (target : Vault) (sources : List VaultId) :
    Contract Unit :=
  sources.forM fun sourceId => do
    require (sourceId ≠ targetVaultId) .invalidAmount
    let source ← loadVault sourceId
    require (source.owner = target.owner) .notOwner
    require (source.tokenAddress = target.tokenAddress) .incompatibleVaultToken
    require (source.status = .locked) .alreadyReleased

/-- The second loop: each source is emptied and cancelled; the result is the target's balance. -/
def absorbSources : List VaultId → Int → Contract Int
  | [], balance => pure balance
  | sourceId :: rest, balance => do
    let source ← loadVault sourceId
    let balance ← checkedAdd balance source.balance .balanceOverflow
    saveVault sourceId { source with balance := 0, status := .cancelled }
    removeOwnerVaultId source.owner sourceId
    removeBeneficiaryVaultId source.beneficiary sourceId
    absorbSources rest balance

def mergeVaults (targetVaultId : VaultId) (sourceVaultIds : List VaultId) (caller : Address) :
    Contract Unit := do
  assertNotPaused
  let target ← loadOwnedLocked env targetVaultId caller
  validateSources targetVaultId target sourceVaultIds
  let balance ← absorbSources sourceVaultIds target.balance
  saveVault targetVaultId { target with balance := balance }

/-! ### Inheritance and restoration -/

/-- The new vault is not screened, counted against the capacities or entered as a duplicate key. -/
def createVaultFromInheritance (parentVaultId : VaultId) (caller newBeneficiary : Address)
    (checkInInterval : Nat) (tokenAddress : Option Address) : Contract VaultId := do
  requireAuth env caller
  requireInitialized
  let parent ← loadVault parentVaultId
  require (caller = parent.beneficiary) .notOwner
  require (parent.status = .released) .notExpired
  require (checkInInterval ≠ 0) .invalidInterval
  assertIntervalInBounds checkInInterval
  require (caller ≠ newBeneficiary) .invalidBeneficiary
  let token ← chooseToken tokenAddress
  let count ← read (·.vaultCount)
  let id ← u64 (count + 1)
  saveVault id
    { newVault caller newBeneficiary token checkInInterval env.now with
      parentVaultId := some parentVaultId }
  addOwnerVaultId caller id
  addBeneficiaryVaultId newBeneficiary id
  write fun s => { s with vaultCount := id }
  pure id

/-- The vault is written back as it is. -/
def restoreVault : Contract Unit := do
  requireAuth env caller
  let admin ← loadAdmin
  let vault ← loadVault id
  require (caller = vault.owner ∨ caller = admin) .notOwner
  saveVault id vault

end EthosContracts.TtlVault
