/-
**Multi-signature proposals** (`beneficiary_workflows.rs`).

Proposing requires a `Locked` vault; `execute_multisig` checks the proposal and its expiry, not the
vault's status.
-/

import EthosContracts.TtlVault.Settings

namespace EthosContracts.TtlVault

open Lib Function

variable (env : Env) (id : VaultId) (proposalId : Nat) (caller : Address)

/-! ### Configuration -/

def setMultiSigConfig (config : Option MultiSigConfig) : Contract Unit :=
  write fun s => { s with
    multiSig.config := update s.multiSig.config id config }

def configureMultisig (signers : List Address) (threshold : Nat) : Contract Unit := do
  let vault ← loadOwnedLocked env id caller
  require (threshold ≠ 0 ∧ threshold ≤ signers.length + 1) .invalidThreshold
  require (vault.owner ∉ signers) .invalidBeneficiary
  setMultiSigConfig id (some ⟨signers, threshold⟩)

def removeMultisig : Contract Unit := do
  let _ ← loadOwned env id caller
  setMultiSigConfig id none

/-- A pending proposal that cannot reach the threshold without the removed signer is rejected. -/
def MultiSigProposal.withoutSigner (proposal : MultiSigProposal) (signer : Address)
    (threshold : Nat) : MultiSigProposal :=
  if proposal.status = .pending ∧ (proposal.approvals.filter (· ≠ signer)).length < threshold then
    { proposal with status := .rejected }
  else proposal

def removeMultisigSigner (signerToRemove : Address) : Contract Unit := do
  let _ ← loadOwned env id caller
  let stored ← read (·.multiSig.config id)
  let config ← found stored .multiSigRequired
  require (signerToRemove ∈ config.signers) .notASigner
  let signers := config.signers.filter (· ≠ signerToRemove)
  let threshold := min config.threshold (signers.length + 1)
  setMultiSigConfig id (some ⟨signers, threshold⟩)
  -- the loop over the proposals `1..=count`
  write fun s => { s with
    multiSig.proposal := update s.multiSig.proposal id fun proposalId =>
      if 1 ≤ proposalId ∧ proposalId ≤ s.multiSig.proposalCount id then
        (s.multiSig.proposal id proposalId).map (·.withoutSigner signerToRemove threshold)
      else s.multiSig.proposal id proposalId }

/-! ### Proposals -/

def setProposal (proposal : MultiSigProposal) : Contract Unit :=
  write fun s => { s with
    multiSig.proposal := update s.multiSig.proposal id
      (update (s.multiSig.proposal id) proposalId (some proposal)) }

def closeProposal : Contract Unit :=
  write fun s => { s with
    multiSig.openProposals := update s.multiSig.openProposals id
      ((s.multiSig.openProposals id).filter (· ≠ proposalId)) }

def loadProposal : Contract MultiSigProposal := do
  let stored ← read (·.multiSig.proposal id proposalId)
  found stored .proposalNotFound

/-- The proposer's approval is counted, but does not make the proposal `Approved` by itself. -/
def proposeMultisig (operation : MultiSigOperation) (payload : Bytes)
    (addressPayload : Option Address) : Contract Nat := do
  let _ ← loadOwnedLocked env id caller
  let config ← read (·.multiSig.config id)
  require (config.isSome) .multiSigRequired
  let count ← read (·.multiSig.proposalCount id)
  let proposalId ← u64 (count + 1)
  let expiresAt ← u64 (env.now + 604800)
  setProposal id proposalId
    { id := proposalId
      operation := operation
      approvals := [caller]
      status := .pending
      expiresAt := expiresAt
      vaultId := id
      payload := payload
      addressPayload := addressPayload
      createdAt := env.now }
  write fun s => { s with
    multiSig.proposalCount := update s.multiSig.proposalCount id proposalId
    multiSig.openProposals := update s.multiSig.openProposals id
      (s.multiSig.openProposals id ++ [proposalId]) }
  pure proposalId

def loadAsSigner : Contract MultiSigConfig := do
  requireAuth env caller
  let stored ← read (·.multiSig.config id)
  let config ← found stored .multiSigRequired
  let vault ← loadVault id
  require (caller = vault.owner ∨ caller ∈ config.signers) .notASigner
  pure config

def approveMultisig : Contract Unit := do
  let config ← loadAsSigner env id caller
  let proposal ← loadProposal id proposalId
  require (proposal.status = .pending) .proposalNotFound
  require (env.now ≤ proposal.expiresAt) .proposalExpired
  require (caller ∉ proposal.approvals) .invalidAmount
  let approvals := proposal.approvals ++ [caller]
  setProposal id proposalId
    { proposal with
      approvals := approvals
      status := if config.threshold ≤ approvals.length then .approved else .pending }

def rejectMultisig : Contract Unit := do
  let _ ← loadOwned env id caller
  let proposal ← loadProposal id proposalId
  require (proposal.status = .pending) .proposalNotFound
  setProposal id proposalId { proposal with status := .rejected }
  closeProposal id proposalId

def vetoProposal : Contract Unit := do
  let _ ← loadAsSigner env id caller
  let proposal ← loadProposal id proposalId
  require (proposal.status ≠ .executed ∧ proposal.status ≠ .expired) .proposalNotFound
  setProposal id proposalId { proposal with status := .vetoed }

/-! ### Execution -/

def leValue : Bytes → Nat
  | [] => 0
  | byte :: rest => byte.toNat + 256 * leValue rest

def decodeI128 (payload : Bytes) : Contract Int := do
  require (16 ≤ payload.length) .invalidAmount
  let value := leValue (payload.take 16)
  pure (if value < 2 ^ 127 then value else (value : Int) - 2 ^ 128)

def decodeU64 (payload : Bytes) : Contract Nat := do
  require (8 ≤ payload.length) .invalidAmount
  pure (leValue (payload.take 8))

def doWithdraw (vault : Vault) (amount : Int) : Contract Unit := do
  require (0 < amount) .invalidAmount
  require (amount ≤ vault.balance) .insufficientBalance
  payOut env id vault.tokenAddress vault.owner amount
  let balance ← i128 (vault.balance - amount)
  saveVault id { vault with balance := balance }

/-- The operation of an approved proposal, on the vault as it is at the execution. -/
def performOperation (vault : Vault) (proposal : MultiSigProposal) : Contract Unit :=
  match proposal.operation with
  | .withdraw => do
    let amount ← decodeI128 proposal.payload
    doWithdraw env id vault amount
  | .updateBeneficiary => do
    let newBeneficiary ← found proposal.addressPayload .invalidAmount
    require (newBeneficiary ≠ vault.owner) .invalidBeneficiary
    saveVault id { vault with beneficiary := newBeneficiary }
    moveBeneficiaryIndex id vault.beneficiary newBeneficiary
  | .cancelVault => do
    refundOwner env id vault
    saveVault id { vault with balance := 0, status := .cancelled }
    removeOwnerVaultId vault.owner id
    removeBeneficiaryVaultId vault.beneficiary id
  | .transferOwnership => do
    let newOwner ← found proposal.addressPayload .invalidAmount
    require (newOwner ≠ vault.beneficiary) .invalidBeneficiary
    moveOwnerIndex id vault.owner newOwner
    saveVault id { vault with owner := newOwner }
  | .updateCheckInInterval => do
    let newInterval ← decodeU64 proposal.payload
    require (newInterval ≠ 0) .invalidInterval
    assertIntervalInBounds newInterval
    saveVault id { vault with checkInInterval := newInterval, lastCheckIn := env.now }

def executeMultisig : Contract Unit := do
  let vault ← loadOwned env id caller
  let proposal ← loadProposal id proposalId
  require (proposal.status = .approved) .invalidThreshold
  require (env.now ≤ proposal.expiresAt) .proposalExpired
  setProposal id proposalId { proposal with status := .executed }
  performOperation env id vault proposal
  closeProposal id proposalId

end EthosContracts.TtlVault
