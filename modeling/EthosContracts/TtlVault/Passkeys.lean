/-
**Passkeys, backup codes and recovery** (`passkeys_and_recovery.rs`, `extend_passkey_expiry`).

Both kinds of codes count as a sign of life. `use_backup_code` compares a stored hash with the
argument itself, `recover_with_code` with the hash of the argument.
-/

import EthosContracts.TtlVault.Lifecycle

namespace EthosContracts.TtlVault

open Lib Function

variable (env : Env) (id : VaultId) (caller : Address) (passkeyHash : Hash)

/-! ### Registered passkeys -/

def setVaultPasskeys (passkeys : List PasskeyHash) : Contract Unit :=
  write fun s => { s with
    checkIns.vaultPasskeys := update s.checkIns.vaultPasskeys id passkeys }

def addPasskey : Contract Unit := do
  let _ ← loadOwnedLocked env id caller
  let passkeys ← read (·.checkIns.vaultPasskeys id)
  setVaultPasskeys id (passkeys ++ [⟨passkeyHash, env.now, none⟩])

def removePasskey : Contract Unit := do
  let _ ← loadOwnedLocked env id caller
  let passkeys ← read (·.checkIns.vaultPasskeys id)
  require (∃ passkey ∈ passkeys, passkey.hash = passkeyHash) .passkeyNotFound
  setVaultPasskeys id (passkeys.filter (·.hash ≠ passkeyHash))

/-- Set the biometric binding of the first passkey with the hash. -/
def bindFirst (passkeyHash : Hash) (biometricHash : Option Bytes) :
    List PasskeyHash → List PasskeyHash
  | [] => []
  | passkey :: rest =>
    if passkey.hash = passkeyHash then { passkey with biometricHash := biometricHash } :: rest
    else passkey :: bindFirst passkeyHash biometricHash rest

/-- `bind_passkey_biometric` and `unbind_passkey_biometric`. -/
def setPasskeyBiometric (biometricHash : Option Bytes) : Contract Unit := do
  let _ ← loadOwnedLocked env id caller
  let passkeys ← read (·.checkIns.vaultPasskeys id)
  require (∃ passkey ∈ passkeys, passkey.hash = passkeyHash) .passkeyNotFound
  setVaultPasskeys id (bindFirst passkeyHash biometricHash passkeys)

def bindPasskeyBiometric (biometricHash : Hash) : Contract Unit :=
  setPasskeyBiometric env id caller passkeyHash (some biometricHash)

def unbindPasskeyBiometric : Contract Unit :=
  setPasskeyBiometric env id caller passkeyHash none

def rotatePasskey (oldPasskeyHash newPasskeyHash : Hash) : Contract Unit := do
  let vault ← loadOwnedLocked env id caller
  require (vault.passkeyHash = some oldPasskeyHash) .invalidPasskey
  saveVault id { vault with passkeyHash := some newPasskeyHash }

def setCompromisedPasskeys (hashes : List Hash) : Contract Unit :=
  write fun s => { s with
    checkIns.compromisedPasskeys :=
      update s.checkIns.compromisedPasskeys id hashes }

def reportPasskeyCompromise : Contract Unit := do
  let _ ← loadOwned env id caller
  let hashes ← read (·.checkIns.compromisedPasskeys id)
  if passkeyHash ∈ hashes then pure ()
  else setCompromisedPasskeys id (hashes ++ [passkeyHash])

def clearPasskeyCompromise : Contract Unit := do
  let _ ← loadOwned env id caller
  let hashes ← read (·.checkIns.compromisedPasskeys id)
  setCompromisedPasskeys id (hashes.filter (· ≠ passkeyHash))

def extendPasskeyExpiry (newExpiry : Nat) : Contract Unit := do
  let _ ← loadOwned env id caller
  write fun s => { s with
    checkIns.passkeyExpiry := update s.checkIns.passkeyExpiry id
      (update (s.checkIns.passkeyExpiry id) passkeyHash (some newExpiry)) }

/-! ### Delegation and escrow -/

def setPasskeyDelegation (delegation : Option PasskeyDelegation) : Contract Unit :=
  write fun s => { s with
    checkIns.passkeyDelegation := update s.checkIns.passkeyDelegation id
      (update (s.checkIns.passkeyDelegation id) passkeyHash delegation) }

def delegatePasskey (delegate : Address) (expiresAt : Nat) : Contract Unit := do
  let vault ← loadOwnedLocked env id caller
  let passkeys ← read (·.checkIns.vaultPasskeys id)
  require (∃ passkey ∈ passkeys, passkey.hash = passkeyHash) .passkeyNotFound
  require (env.now < expiresAt) .invalidInterval
  require (delegate ≠ vault.owner) .invalidBeneficiary
  setPasskeyDelegation id passkeyHash (some ⟨delegate, expiresAt⟩)

def revokePasskeyDelegation : Contract Unit := do
  let _ ← loadOwned env id caller
  setPasskeyDelegation id passkeyHash none

def setPasskeyEscrow (record : Option PasskeyEscrowRecord) : Contract Unit :=
  write fun s => { s with
    checkIns.passkeyEscrow := update s.checkIns.passkeyEscrow id
      (update (s.checkIns.passkeyEscrow id) passkeyHash record) }

def escrowPasskey (recoveryContact : Address) : Contract Unit := do
  let vault ← loadOwnedLocked env id caller
  require (recoveryContact ≠ vault.owner) .invalidBeneficiary
  let passkeys ← read (·.checkIns.vaultPasskeys id)
  require (∃ passkey ∈ passkeys, passkey.hash = passkeyHash) .passkeyNotFound
  let existing ← read (·.checkIns.passkeyEscrow id passkeyHash)
  require (existing.isNone) .alreadyInEscrow
  setPasskeyEscrow id passkeyHash (some ⟨recoveryContact, env.now⟩)

def releaseEscrowPasskey : Contract Unit := do
  requireAuth env caller
  let stored ← read (·.checkIns.passkeyEscrow id passkeyHash)
  let record ← found stored .passkeyNotFound
  require (caller = record.recoveryContact) .notRecoveryContact
  setPasskeyEscrow id passkeyHash none

def cancelPasskeyEscrow : Contract Unit := do
  let _ ← loadOwned env id caller
  let existing ← read (·.checkIns.passkeyEscrow id passkeyHash)
  require (existing.isSome) .passkeyNotFound
  setPasskeyEscrow id passkeyHash none

/-! ### Recovery of a passkey -/

def setPasskeyRecoveryRequest (request : Option PasskeyRecoveryRequest) : Contract Unit :=
  write fun s => { s with
    checkIns.passkeyRecoveryRequest :=
      update s.checkIns.passkeyRecoveryRequest id request }

/-- Anyone may start a recovery and name its contacts. -/
def initiatePasskeyRecovery (newPasskeyHash : Hash) (recoveryCode : String)
    (contacts : List Address) (required : Nat) : Contract Unit := do
  require (required ≠ 0 ∧ required ≤ contacts.length) .invalidThreshold
  setPasskeyRecoveryRequest id (some ⟨newPasskeyHash, env.now, recoveryCode, [], required⟩)
  write fun s => { s with
    checkIns.recoveryContacts :=
      update s.checkIns.recoveryContacts id (some contacts) }

def approvePasskeyRecovery : Contract Unit := do
  requireAuth env caller
  let storedContacts ← read (·.checkIns.recoveryContacts id)
  let contacts ← found storedContacts .notRecoveryContact
  require (caller ∈ contacts) .notRecoveryContact
  let stored ← read (·.checkIns.passkeyRecoveryRequest id)
  let request ← found stored .notRecoveryContact
  require (caller ∉ request.approvedContacts) .alreadyApproved
  let approved := request.approvedContacts ++ [caller]
  if request.requiredContacts ≤ approved.length then do
    let passkeys ← read (·.checkIns.vaultPasskeys id)
    setVaultPasskeys id (passkeys ++ [⟨request.newPasskeyHash, env.now, none⟩])
    setPasskeyRecoveryRequest id none
  else setPasskeyRecoveryRequest id (some { request with approvedContacts := approved })

/-! ### Backup codes -/

def generateBackupCodes (codeHashes : List Hash) : Contract Unit := do
  let _ ← loadOwnedLocked env id caller
  require (codeHashes.length = 10) .invalidBackupCode
  require (codeHashes.Nodup) .invalidBackupCode
  write fun s => { s with
    checkIns.encryptedBackupCodes := update s.checkIns.encryptedBackupCodes id
      (some (codeHashes.map fun hash => ⟨hash, false⟩))
    checkIns.backupCodes := update s.checkIns.backupCodes id none }

/-- The registered codes, the legacy ones hashed. -/
def loadBackupCodes : Contract (List HashedBackupCode) := do
  let encrypted ← read (·.checkIns.encryptedBackupCodes id)
  match encrypted with
  | some codes => pure codes
  | none => do
    let stored ← read (·.checkIns.backupCodes id)
    let legacy ← found stored .invalidBackupCode
    pure (legacy.map fun code => ⟨env.sha256 code.code.toUTF8.data.toList, code.used⟩)

/-- Mark the first code with the hash as used. -/
def consumeCode (codeHash : Hash) : List HashedBackupCode → Contract (List HashedBackupCode)
  | [] => fail (.error .invalidBackupCode)
  | code :: rest =>
    if code.codeHash = codeHash then do
      require (code.used = false) .backupCodeAlreadyUsed
      pure ({ code with used := true } :: rest)
    else do
      let rest ← consumeCode codeHash rest
      pure (code :: rest)

/-- Anyone may present a code's hash, which is what the vault stores. -/
def useBackupCode (codeHash : Hash) : Contract Unit := do
  let vault ← loadVault id
  require (vault.status = .locked) .alreadyReleased
  let codes ← loadBackupCodes env id
  let remaining ← consumeCode codeHash codes
  saveVault id { vault with lastCheckIn := env.now }
  write fun s => { s with
    checkIns.backupCodes := update s.checkIns.backupCodes id
      (if (s.checkIns.encryptedBackupCodes id).isSome then s.checkIns.backupCodes id
       else none)
    checkIns.encryptedBackupCodes :=
      update s.checkIns.encryptedBackupCodes id (some remaining) }

/-! ### Emergency recovery code -/

def setRecoveryCodeHash (hash : Option Hash) : Contract Unit :=
  write fun s => { s with
    checkIns.recoveryCodeHash := update s.checkIns.recoveryCodeHash id hash }

/-- `code` is the output of the host's random generator, returned to the owner. -/
def generateRecoveryCode (code : Bytes) : Contract Unit := do
  let vault ← loadVault id
  requireAuth env vault.owner
  require (vault.status = .locked) .alreadyReleased
  setRecoveryCodeHash id (some (env.sha256 code))

def recoverWithCode (recoveryCode : Bytes) (newPasskeyProof : Hash) : Contract Unit := do
  let vault ← loadVault id
  require (vault.status = .locked) .alreadyReleased
  let stored ← read (·.checkIns.recoveryCodeHash id)
  let storedHash ← found stored .recoveryCodeNotSet
  require (env.sha256 recoveryCode = storedHash) .invalidRecoveryCode
  setVaultPasskeys id [⟨newPasskeyProof, env.now, none⟩]
  saveVault id { vault with passkeyHash := some newPasskeyProof, lastCheckIn := env.now }
  setRecoveryCodeHash id none

/-! ### Recovery contact -/

/-- The contact is published in an event; no storage key is written. -/
def setRecoveryContact (_contact : Address) : Contract Unit := do
  let _ ← loadOwnedLocked env id caller
  pure ()

/-- The caller is authenticated and otherwise not checked. -/
def requestRecoveryExtension : Contract Unit := do
  requireAuth env caller
  let vault ← loadVault id
  require (vault.status = .locked) .alreadyReleased
  saveVault id { vault with lastCheckIn := env.now }

/-! ### Biometric check-in -/

def biometricCheckIn (biometricHash : Hash) : Contract Unit := do
  assertNotPaused
  requireAuth env caller
  let vault ← loadVault id
  require (vault.isPaused = false) .paused
  let delegate ← read (isCheckInDelegate · id caller)
  require (caller = vault.owner ∨ delegate = true) .notOwner
  require (vault.status = .locked) .alreadyReleased
  validatePasskeyForCheckin env id vault passkeyHash
  let passkeys ← read (·.checkIns.vaultPasskeys id)
  let passkey ← found (passkeys.find? (·.hash = passkeyHash)) .passkeyNotFound
  require (passkey.biometricHash = some biometricHash) .invalidPasskey
  saveVault id { vault with lastCheckIn := env.now }

end EthosContracts.TtlVault
