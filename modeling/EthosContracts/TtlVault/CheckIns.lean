/-
**The calls that move a vault's deadline** (`withdrawals.rs`, `views.rs`,
`beneficiary_workflows.rs`): the other check-ins and who may make them, the owner's adjustments, and
hibernation.
-/

import EthosContracts.TtlVault.Lifecycle

namespace EthosContracts.TtlVault

open Lib Function

variable (env : Env) (id : VaultId) (vaultIds : List VaultId) (caller : Address)

/-! ### Check-ins of several vaults -/

/-- Record a check-in now, without further checks. -/
def touchVault : Contract Unit := do
  let vault ← loadVault id
  saveVault id { vault with lastCheckIn := env.now }

/-- Both loops of `batch_check_in`; the second applies the rotation schedule too. -/
def batchCheckIn : Contract Unit := do
  assertNotPaused
  requireAuth env caller
  vaultIds.forM fun id => do
    let vault ← loadVault id
    require (vault.isPaused = false) .paused
    require (caller = vault.owner) .notOwner
    require (vault.status = .locked) .alreadyReleased
  vaultIds.forM fun id => do
    let vault ← loadVault id
    let rotated ← applyRotation env id { vault with lastCheckIn := env.now }
    saveVault id rotated

def batchCheckInV2 (passkeyHash : Hash) : Contract Unit := do
  assertNotPaused
  requireAuth env caller
  vaultIds.forM fun id => do
    let vault ← loadVault id
    require (vault.isPaused = false) .paused
    let delegate ← read (isCheckInDelegate · id caller)
    require (caller = vault.owner ∨ delegate = true) .notOwner
    require (vault.status = .locked) .alreadyReleased
    validatePasskeyForCheckin env id vault passkeyHash
    assertWithinMaxTtl env vault.checkInInterval
  vaultIds.forM fun id => touchVault env id

def syncVaultTtls : Contract Unit := do
  assertNotPaused
  requireAuth env caller
  vaultIds.forM fun id => do
    let vault ← loadVault id
    require (caller = vault.owner) .notOwner
    require (vault.status = .locked) .alreadyReleased
    assertWithinMaxTtl env vault.checkInInterval
  vaultIds.forM fun id => touchVault env id

/-! ### Check-ins of one vault -/

def toLeBytes (value : Nat) : Bytes :=
  (List.range 8).map fun i => UInt8.ofNat (value / 256 ^ i)

def leadingZeroBits : Bytes → Nat
  | [] => 0
  | byte :: rest => if byte = 0 then 8 + leadingZeroBits rest else 7 - byte.toNat.log2

def verifyPow (id lastCheckIn nonce difficulty : Nat) : Bool :=
  difficulty = 0 ∨
    difficulty ≤ leadingZeroBits
      (env.sha256 (toLeBytes id ++ toLeBytes lastCheckIn ++ toLeBytes nonce))

def checkInWithPow (passkeyHash : Hash) (nonce difficulty : Nat) : Contract Unit := do
  assertNotPaused
  requireAuth env caller
  let vault ← loadVault id
  require (vault.isPaused = false) .paused
  let delegate ← read (isCheckInDelegate · id caller)
  require (caller = vault.owner ∨ delegate = true) .notOwner
  require (vault.status = .locked) .alreadyReleased
  validatePasskeyForCheckin env id vault passkeyHash
  require (verifyPow env id vault.lastCheckIn nonce (min difficulty 20) = true) .invalidPasskey
  assertWithinMaxTtl env vault.checkInInterval
  saveVault id { vault with lastCheckIn := env.now }

/-- The geographic arguments are ignored. -/
def checkInWithGeo (passkeyHash : Hash) : Contract Unit :=
  checkIn env id caller passkeyHash 0

def setCheckInDelegates (delegates : List Address) : Contract Unit :=
  write fun s => { s with
    checkIns.checkInDelegates :=
      update s.checkIns.checkInDelegates id delegates }

def addCheckInDelegate (delegate : Address) : Contract Unit := do
  let _ ← loadOwnedLocked env id caller
  let delegates ← read (·.checkIns.checkInDelegates id)
  require (delegate ∉ delegates) .invalidBeneficiary
  setCheckInDelegates id (delegates ++ [delegate])

def removeCheckInDelegate (delegate : Address) : Contract Unit := do
  let _ ← loadOwned env id caller
  let delegates ← read (·.checkIns.checkInDelegates id)
  require (delegate ∈ delegates) .passkeyNotFound
  setCheckInDelegates id (delegates.filter (· ≠ delegate))

/-! ### The owner's adjustments -/

def updateCheckInInterval (newInterval : Nat) : Contract Unit := do
  assertNotPaused
  require (newInterval ≠ 0) .invalidInterval
  assertIntervalInBounds newInterval
  let vault ← loadVault id
  requireAuth env vault.owner
  require (vault.status = .locked) .alreadyReleased
  saveVault id { vault with checkInInterval := newInterval, lastCheckIn := env.now }

def getTtlRemaining : Contract (Option Nat) := do
  let stored ← read (·.vaults id)
  match stored with
  | none => pure none
  | some vault => do
    let deadline ← u64 vault.deadline
    if deadline ≤ env.now then pure none else pure (some (deadline - env.now))

/-- The decay: no effect without a rate or within thirty days of the last check-in. -/
def applyTtlDecay : Contract Nat := do
  let vault ← loadVault id
  require (vault.status = .locked) .alreadyReleased
  requireAuth env vault.owner
  let rate ← read (·.config.ttlDecayRate)
  if rate.getD 0 = 0 then do
    let remaining ← getTtlRemaining env id
    pure (remaining.getD 0)
  else do
    let decayStart ← u64 (vault.lastCheckIn + 2592000)
    if env.now < decayStart then do
      let remaining ← getTtlRemaining env id
      pure (remaining.getD 0)
    else do
      let deadline ← u64 vault.deadline
      let kept ← u64Sub 10000 (rate.getD 0)
      let scaled ← u64 ((deadline - env.now) * kept)
      let newDeadline ← u64 (env.now + scaled / 10000)
      let lastCheckIn ← u64Sub newDeadline vault.checkInInterval
      saveVault id { vault with lastCheckIn := lastCheckIn }
      pure (scaled / 10000)

def accelerateTtlDecay (accelerateBySeconds : Nat) : Contract Unit := do
  assertNotPaused
  requireAuth env caller
  require (accelerateBySeconds ≠ 0 ∧ accelerateBySeconds ≤ 2592000) .invalidAmount
  let vault ← loadOwnedLocked env id caller
  let deadline ← u64 vault.deadline
  require (accelerateBySeconds < deadline - env.now) .insufficientTtlToAccelerate
  saveVault id { vault with lastCheckIn := vault.lastCheckIn - accelerateBySeconds }

/-! ### Borrowing -/

def setTtlBorrow (record : TtlBorrowRecord) : Contract Unit :=
  write fun s => { s with
    checkIns.ttlBorrow := update s.checkIns.ttlBorrow id (some record) }

/-- Only the borrower's owner authorises the loan; the record replaces an earlier one. -/
def borrowTtl (borrowerVaultId lenderVaultId : VaultId) (caller : Address) (borrowSeconds : Nat) :
    Contract Unit := do
  assertNotPaused
  requireAuth env caller
  require (borrowSeconds ≠ 0 ∧ borrowerVaultId ≠ lenderVaultId) .invalidAmount
  let borrower ← loadOwnedLocked env borrowerVaultId caller
  let lender ← loadVault lenderVaultId
  require (lender.status = .locked) .alreadyReleased
  let lenderDeadline ← u64 lender.deadline
  require (borrowSeconds < lenderDeadline - env.now) .insufficientBalance
  setTtlBorrow borrowerVaultId ⟨borrowerVaultId, lenderVaultId, borrowSeconds, env.now, false⟩
  saveVault borrowerVaultId
    { borrower with lastCheckIn := saturatingAdd borrower.lastCheckIn borrowSeconds }
  saveVault lenderVaultId { lender with lastCheckIn := lender.lastCheckIn - borrowSeconds }

/-- The lender gets its time back; the borrower keeps it. -/
def repayTtlBorrow (borrowerVaultId : VaultId) (caller : Address) : Contract Unit := do
  let _ ← loadOwned env borrowerVaultId caller
  let stored ← read (·.checkIns.ttlBorrow borrowerVaultId)
  let record ← found stored .ttlBorrowNotFound
  require (record.repaid = false) .ttlBorrowAlreadyRepaid
  let lender ← loadVault record.lenderVaultId
  saveVault record.lenderVaultId
    { lender with lastCheckIn := saturatingAdd lender.lastCheckIn record.borrowedSeconds }
  setTtlBorrow borrowerVaultId { record with repaid := true }

/-! ### Hibernation -/

def setHibernation (entry : Option HibernationEntry) : Contract Unit :=
  write fun s => { s with
    checkIns.hibernation := update s.checkIns.hibernation id entry }

def enterHibernation (durationSeconds : Nat) : Contract Unit := do
  requireAuth env caller
  require (durationSeconds ≠ 0) .invalidInterval
  let vault ← loadOwnedLocked env id caller
  let existing ← read (·.checkIns.hibernation id)
  require (existing.isNone) .alreadyHibernating
  let _ ← u64 (vault.checkInInterval + durationSeconds)
  setHibernation id (some ⟨env.now, durationSeconds⟩)

def exitHibernation : Contract Unit := do
  let vault ← loadOwnedLocked env id caller
  let stored ← read (·.checkIns.hibernation id)
  let entry ← found stored .notHibernating
  let elapsed := min (env.now - entry.startedAt) entry.durationSeconds
  setHibernation id none
  saveVault id { vault with lastCheckIn := saturatingAdd vault.lastCheckIn elapsed }

end EthosContracts.TtlVault
