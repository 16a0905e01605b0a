/-
**The `sbt` contract**: soulbound tokens with transfers, escrow, delegation and recovery codes.

`SbtError::InvalidCompositionGraph`, which the source raises without declaring it, is an error of
the model.
-/

import Mathlib.Data.Prod.Lex
import EthosContracts.Soroban
import EthosContracts.Lib.Replay
import EthosContracts.Lib.Table

namespace EthosContracts.Sbt

open Lib Soroban Function List
open TtlVault (Address Bytes Hash maxU64 saturatingAdd)

/-! ### Storage -/

def recoveryCodeCount : Nat := 5
def recoveryMaxAttempts : Nat := 5
def recoveryAttemptWindowSeconds : Nat := 3600
def totalBasisPoints : Nat := 10000
def maxCompositionComponents : Nat := 16
def maxCompositionDepth : Nat := 8
def maxCredentialBatch : Nat := 50
def maxMetadataSize : Nat := 4096

inductive SbtError
  | alreadyInitialized
  | notInitialized
  | tokenNotFound
  | emptyMetadata
  | alreadyComposed
  | notComposed
  | nftOwnershipMismatch
  | invalidDuration
  | noActiveDelegation
  | mismatchedBatchLengths
  | transferConditionNotMet
  | emptyBatch
  | selfDelegation
  | metadataCompressionFailed
  | fractionalOwnershipExists
  | invalidFractionSum
  | notInEscrow
  | alreadyInEscrow
  | escrowConditionsNotMet
  | mismatchedOwnershipArrays
  | credentialAlreadyReleased
  | duplicateCredentialId
  | noRecoveryCodes
  | recoveryRateLimited
  | batchTooLarge
  | tooManyComponents
  | invalidCompositionGraph
deriving DecidableEq

structure CompositionRecord where
  nftAddress : Address
  nftId : Nat
  composedAt : Nat
deriving DecidableEq

structure DelegationRecord where
  delegate : Address
  delegatedAt : Nat
  expiresAt : Nat
deriving DecidableEq

inductive DelegationAction
  | delegated
  | revoked
deriving DecidableEq

structure DelegationHistoryEntry where
  delegate : Address
  action : DelegationAction
  atTime : Nat
  expiresAt : Nat
deriving DecidableEq

structure FractionalOwnership where
  sbtId : Nat
  holders : List Address
  fractions : List Nat
  createdAt : Nat
deriving DecidableEq

inductive OwnershipAction
  | created
  | updated
  | removed
deriving DecidableEq

structure OwnershipHistoryEntry where
  sbtId : Nat
  holder : Address
  fraction : Nat
  action : OwnershipAction
  atTime : Nat
deriving DecidableEq

structure EscrowRecord where
  escrowId : Nat
  sbtId : Nat
  escrowAgent : Address
  conditions : Bytes
  createdAt : Nat
  released : Bool
deriving DecidableEq

structure RecoveryAttemptState where
  attemptCount : Nat
  windowStart : Nat
deriving DecidableEq

/-- What an instruction asks of the token. -/
inductive TransferCondition
  | always
  | minHoldSeconds (seconds : Nat)
  | noActiveDelegation
deriving DecidableEq

structure TransferInstruction where
  receiver : Address
  condition : TransferCondition
deriving DecidableEq

/-- The storage keys of the contract. -/
structure SbtState where
  admin : Option Address := none
  nextTokenId : Nat := 0
  owner : Nat → Option Address := fun _ => none
  metadata : Nat → Option Bytes := fun _ => none
  metadataCompressed : Nat → Bool := fun _ => false
  mintedAt : Nat → Option Nat := fun _ => none
  composition : Nat → Option CompositionRecord := fun _ => none
  compositionComponents : Nat → Option (List Nat) := fun _ => none
  sharedMetadata : Nat → Option String := fun _ => none
  delegation : Nat → Option DelegationRecord := fun _ => none
  delegationHistory : Nat → List DelegationHistoryEntry := fun _ => []
  fractionalOwnership : Nat → Option FractionalOwnership := fun _ => none
  ownershipHistory : Nat → List OwnershipHistoryEntry := fun _ => []
  escrow : Nat → Option EscrowRecord := fun _ => none
  nextEscrowId : Nat := 0
  recoveryCodes : Nat → Option (List Hash) := fun _ => none
  recoveryAttempts : Nat → Option RecoveryAttemptState := fun _ => none

abbrev SbtTx (α : Type) : Type := Tx (Halt SbtError) SbtState α

/-- What one call sees, with the owner that an NFT contract names, if it answers. -/
structure SbtEnv extends Caller where
  nftOwner : Address → Nat → Option Address

/-- The hash of the host and the metadata compression. -/
structure Functions where
  sha256 : Bytes → Hash
  compressMetadata : Bytes → Bytes
  isCompressed : Bytes → Bool

variable (functions : Functions) (env : SbtEnv) (s : SbtState) (sbtId : Nat)

/-! ### Helpers -/

def requireAdmin : SbtTx Unit := do
  let stored ← read SbtState.admin
  let admin ← found stored .notInitialized
  requireAuth env.toCaller admin

def loadOwner : SbtTx Address := do
  let stored ← read (·.owner sbtId)
  found stored .tokenNotFound

def requireOwner : SbtTx Address := do
  let owner ← loadOwner sbtId
  requireAuth env.toCaller owner
  pure owner

def setOwner (owner : Address) : SbtTx Unit :=
  write fun s => { s with owner := update s.owner sbtId (some owner) }

def removeDelegation : SbtTx Unit :=
  write fun s => { s with delegation := update s.delegation sbtId none }

def setEscrow (record : EscrowRecord) : SbtTx Unit :=
  write fun s => { s with escrow := update s.escrow sbtId (some record) }

def hasActiveDelegation : Bool :=
  (s.delegation sbtId).any fun record => env.now < record.expiresAt

def evaluateCondition : TransferCondition → Bool
  | .always => true
  | .minHoldSeconds seconds => seconds ≤ env.now - (s.mintedAt sbtId).getD 0
  | .noActiveDelegation => !hasActiveDelegation env s sbtId

def pushDelegationHistory (entry : DelegationHistoryEntry) : SbtTx Unit :=
  write fun s => { s with
    delegationHistory :=
      update s.delegationHistory sbtId (s.delegationHistory sbtId ++ [entry]) }

/-- The recorded shares of a token never exceed the whole. -/
def pushOwnershipHistory (entry : OwnershipHistoryEntry) : SbtTx Unit := do
  let history ← read (·.ownershipHistory sbtId)
  require ((history.map (·.fraction)).sum + entry.fraction ≤ totalBasisPoints) .invalidFractionSum
  write fun s => { s with
    ownershipHistory := update s.ownershipHistory sbtId (history ++ [entry]) }

def recordShares (env : SbtEnv) (sbtId : Nat) : List (Address × Nat) → SbtTx Unit
  | [] => pure ()
  | (holder, fraction) :: rest => do
    pushOwnershipHistory sbtId ⟨sbtId, holder, fraction, .created, env.now⟩
    recordShares env sbtId rest

/-- The search through the components, from the end of the pending ones, with the visits left. -/
def compositionReaches (s : SbtState) (target visits : Nat) (visited : List Nat) : List Nat → Bool
  | [] => false
  | current :: pending =>
    if current = target then true
    else if current ∈ visited then compositionReaches s target visits visited pending
    else
      match visits with
      | 0 => true
      | visits + 1 =>
        compositionReaches s target visits (current :: visited)
          (((s.compositionComponents current).getD []).reverse ++ pending)
termination_by pending => (visits, pending.length)

def compositionReachesAny (roots : List Nat) (target : Nat) : Bool :=
  compositionReaches s target maxCompositionDepth [] roots.reverse

/-! ### Minting, metadata, shares -/

def initializeContract (admin : Address) : SbtTx Unit := do
  let stored ← read SbtState.admin
  require (stored = none) .alreadyInitialized
  requireAuth env.toCaller admin
  write fun s => { s with admin := some admin, nextTokenId := 0 }

def mint (receiver : Address) (metadata : Bytes) : SbtTx Nat := do
  requireAdmin env
  require (metadata ≠ []) .emptyMetadata
  let sbtId ← read SbtState.nextTokenId
  let next ← bounded maxU64 (sbtId + 1)
  write fun s => { s with nextTokenId := next }
  setOwner sbtId receiver
  write fun s => { s with
    metadata := update s.metadata sbtId (some metadata)
    mintedAt := update s.mintedAt sbtId (some env.now) }
  pure sbtId

def compressSbtMetadata : SbtTx Nat := do
  let _ ← requireOwner env sbtId
  let already ← read (·.metadataCompressed sbtId)
  if already then pure 0
  else do
    let stored ← read (·.metadata sbtId)
    let metadata ← found stored .tokenNotFound
    require (metadata.length ≤ maxMetadataSize) .metadataCompressionFailed
    let compressed := functions.compressMetadata metadata
    if functions.isCompressed compressed then do
      write fun s => { s with
        metadata := update s.metadata sbtId (some compressed)
        metadataCompressed := update s.metadataCompressed sbtId true }
      pure (metadata.length - compressed.length)
    else pure 0

def createFractionalSbt (holders : List Address) (fractions : List Nat) : SbtTx Nat := do
  let _ ← requireOwner env sbtId
  require (holders.length = fractions.length) .mismatchedOwnershipArrays
  require (holders ≠ []) .emptyBatch
  require (fractions.foldl saturatingAdd 0 = totalBasisPoints) .invalidFractionSum
  write fun s => { s with
    fractionalOwnership := update s.fractionalOwnership sbtId
      (some ⟨sbtId, holders, fractions, env.now⟩) }
  recordShares env sbtId (holders.zip fractions)
  pure sbtId

/-! ### Escrow -/

/-- A token that has an escrow record, released or not, is refused. -/
def escrowSbt (escrowAgent : Address) (conditions : Bytes) : SbtTx Nat := do
  let _ ← requireOwner env sbtId
  let stored ← read (·.escrow sbtId)
  require (stored = none) .alreadyInEscrow
  let escrowId ← read SbtState.nextEscrowId
  let next ← bounded maxU64 (escrowId + 1)
  write fun s => { s with nextEscrowId := next }
  setEscrow sbtId ⟨escrowId, sbtId, escrowAgent, conditions, env.now, false⟩
  pure escrowId

/-- The record stays, marked as released. -/
def releaseSbtFromEscrow (proof : Bytes) : SbtTx Unit := do
  let stored ← read (·.escrow sbtId)
  let escrow ← found stored .notInEscrow
  requireAuth env.toCaller escrow.escrowAgent
  require (proof ≠ []) .escrowConditionsNotMet
  setEscrow sbtId { escrow with released := true }

/-- The validation of a batch; each agent authorises once. -/
def collectEscrows (env : SbtEnv) (seen : List Nat) (authorized : List Address) :
    List Nat → SbtTx (List EscrowRecord)
  | [] => pure []
  | credentialId :: rest => do
    require (credentialId ∉ seen) .duplicateCredentialId
    let stored ← read (·.escrow credentialId)
    let escrow ← found stored .notInEscrow
    require (escrow.released = false) .credentialAlreadyReleased
    if escrow.escrowAgent ∉ authorized then requireAuth env.toCaller escrow.escrowAgent
    let others ← collectEscrows env (credentialId :: seen) (escrow.escrowAgent :: authorized) rest
    pure (escrow :: others)

def releaseAll : List EscrowRecord → SbtTx Unit
  | [] => pure ()
  | escrow :: rest => do
    setEscrow escrow.sbtId { escrow with released := true }
    releaseAll rest

def atomicReleaseCredentials (credentialIds : List Nat) : SbtTx (List Bool) := do
  require (credentialIds ≠ []) .emptyBatch
  require (credentialIds.length ≤ maxCredentialBatch) .batchTooLarge
  let escrows ← collectEscrows env [] [] credentialIds
  releaseAll escrows
  pure (escrows.map fun _ => true)

/-! ### Composition -/

def composeSbtWithNft (nftAddress : Address) (nftId : Nat) : SbtTx Unit := do
  let owner ← requireOwner env sbtId
  let stored ← read (·.composition sbtId)
  require (stored = none) .alreadyComposed
  let nftOwner ← expect (env.nftOwner nftAddress nftId) .trapped
  require (nftOwner = owner) .nftOwnershipMismatch
  write fun s => { s with
    composition := update s.composition sbtId (some ⟨nftAddress, nftId, env.now⟩) }

def decomposeSbt : SbtTx Unit := do
  let _ ← requireOwner env sbtId
  let stored ← read (·.composition sbtId)
  require (stored.isSome) .notComposed
  write fun s => { s with composition := update s.composition sbtId none }

def setCompositionComponents (componentIds : List Nat) : SbtTx Unit := do
  let _ ← requireOwner env sbtId
  let cyclic ← read (compositionReachesAny · componentIds sbtId)
  require (¬ (componentIds = [] ∨ cyclic = true)) .invalidCompositionGraph
  require (componentIds.length ≤ maxCompositionComponents) .tooManyComponents
  let owned ← read fun s => componentIds.all fun component => (s.owner component).isSome
  require (owned = true) .tokenNotFound
  write fun s => { s with
    compositionComponents := update s.compositionComponents sbtId (some componentIds) }

def setSharedMetadata (metadata : String) : SbtTx Unit := do
  let _ ← requireOwner env sbtId
  write fun s => { s with
    sharedMetadata := update s.sharedMetadata sbtId (some metadata) }

/-! ### Transfers and delegation -/

abbrev Leg : Type := Nat × TransferInstruction

/-- Every leg is validated before the first one is applied. -/
def validateTransfers (env : SbtEnv) : List Leg → SbtTx Unit
  | [] => pure ()
  | (sbtId, instruction) :: rest => do
    let _ ← requireOwner env sbtId
    let holds ← read (evaluateCondition env · sbtId instruction.condition)
    require (holds = true) .transferConditionNotMet
    validateTransfers env rest

def applyTransfers : List Leg → SbtTx Unit
  | [] => pure ()
  | (sbtId, instruction) :: rest => do
    setOwner sbtId instruction.receiver
    removeDelegation sbtId
    applyTransfers rest

def batchTransferSbtConditional (sbtIds : List Nat) (transfers : List TransferInstruction) : SbtTx
    Unit := do
  require (sbtIds.length = transfers.length) .mismatchedBatchLengths
  require (sbtIds ≠ []) .emptyBatch
  validateTransfers env (sbtIds.zip transfers)
  applyTransfers (sbtIds.zip transfers)

def delegateSbtTemporarily (delegate : Address) (durationSeconds : Nat) : SbtTx Unit := do
  let owner ← requireOwner env sbtId
  require (durationSeconds ≠ 0) .invalidDuration
  require (delegate ≠ owner) .selfDelegation
  let expiresAt := saturatingAdd env.now durationSeconds
  write fun s => { s with
    delegation := update s.delegation sbtId (some ⟨delegate, env.now, expiresAt⟩) }
  pushDelegationHistory sbtId ⟨delegate, .delegated, env.now, expiresAt⟩

def revokeSbtDelegation : SbtTx Unit := do
  let _ ← requireOwner env sbtId
  let stored ← read (·.delegation sbtId)
  let record ← found stored .noActiveDelegation
  removeDelegation sbtId
  pushDelegationHistory sbtId ⟨record.delegate, .revoked, env.now, record.expiresAt⟩

/-! ### Recovery codes -/

/-- The codes of the host's generator; only their hashes are stored. -/
def generateSbtRecoveryCodes (codes : Fin recoveryCodeCount → Bytes) : SbtTx (List Bytes) := do
  let _ ← requireOwner env sbtId
  write fun s => { s with
    recoveryCodes := update s.recoveryCodes sbtId (some ((List.ofFn codes).map functions.sha256)) }
  pure (List.ofFn codes)

def enforceRecoveryRateLimit : SbtTx Unit := do
  let stored ← read (·.recoveryAttempts sbtId)
  let state := stored.getD ⟨0, env.now⟩
  let window : RecoveryAttemptState :=
    if recoveryAttemptWindowSeconds ≤ env.now - state.windowStart then ⟨0, env.now⟩ else state
  require (window.attemptCount < recoveryMaxAttempts) .recoveryRateLimited
  write fun s => { s with
    recoveryAttempts := update s.recoveryAttempts sbtId
      (some { window with attemptCount := window.attemptCount + 1 }) }

/-- Whoever knows an unused code becomes the owner; neither an escrow nor the age of the code is
looked at. -/
def recoverSbtWithRecoveryCode (recoveryCode : Bytes) (newHolder : Address) : SbtTx Bool := do
  requireAuth env.toCaller newHolder
  let _ ← loadOwner sbtId
  let fractional ← read (·.fractionalOwnership sbtId)
  require (fractional = none) .fractionalOwnershipExists
  enforceRecoveryRateLimit env sbtId
  let stored ← read (·.recoveryCodes sbtId)
  let hashedCodes ← found stored .noRecoveryCodes
  if functions.sha256 recoveryCode ∈ hashedCodes then do
    write fun s => { s with
      recoveryCodes := update s.recoveryCodes sbtId
        (some (hashedCodes.erase (functions.sha256 recoveryCode))) }
    setOwner sbtId newHolder
    removeDelegation sbtId
    pure true
  else pure false

/-! ### Runs -/

inductive SbtCall
  | initializeContract (admin : Address)
  | mint (receiver : Address) (metadata : Bytes)
  | compressSbtMetadata (sbtId : Nat)
  | createFractionalSbt (sbtId : Nat) (holders : List Address) (fractions : List Nat)
  | escrowSbt (sbtId : Nat) (escrowAgent : Address) (conditions : Bytes)
  | releaseSbtFromEscrow (sbtId : Nat) (proof : Bytes)
  | atomicReleaseCredentials (credentialIds : List Nat)
  | composeSbtWithNft (sbtId : Nat) (nftAddress : Address) (nftId : Nat)
  | decomposeSbt (sbtId : Nat)
  | setCompositionComponents (sbtId : Nat) (componentIds : List Nat)
  | setSharedMetadata (sbtId : Nat) (metadata : String)
  | batchTransferSbtConditional (sbtIds : List Nat) (transfers : List TransferInstruction)
  | delegateSbtTemporarily (sbtId : Nat) (delegate : Address) (durationSeconds : Nat)
  | revokeSbtDelegation (sbtId : Nat)
  | generateSbtRecoveryCodes (sbtId : Nat) (codes : Fin recoveryCodeCount → Bytes)
  | recoverSbtWithRecoveryCode (sbtId : Nat) (recoveryCode : Bytes) (newHolder : Address)

structure SbtInput where
  env : SbtEnv
  call : SbtCall

def discard {α : Type} (x : SbtTx α) : SbtTx Unit := do
  let _ ← x
  pure ()

/-- The entry points that change the state. The codes of `generate_sbt_recovery_codes` are what the
host's generator returns, and an input here. -/
def execSbt (input : SbtInput) : SbtTx Unit :=
  match input.call with
  | .initializeContract a => initializeContract input.env a
  | .mint a b => discard (mint input.env a b)
  | .compressSbtMetadata a => discard (compressSbtMetadata functions input.env a)
  | .createFractionalSbt a b c => discard (createFractionalSbt input.env a b c)
  | .escrowSbt a b c => discard (escrowSbt input.env a b c)
  | .releaseSbtFromEscrow a b => releaseSbtFromEscrow input.env a b
  | .atomicReleaseCredentials a => discard (atomicReleaseCredentials input.env a)
  | .composeSbtWithNft a b c => composeSbtWithNft input.env a b c
  | .decomposeSbt a => decomposeSbt input.env a
  | .setCompositionComponents a b => setCompositionComponents input.env a b
  | .setSharedMetadata a b => setSharedMetadata input.env a b
  | .batchTransferSbtConditional a b => batchTransferSbtConditional input.env a b
  | .delegateSbtTemporarily a b c => delegateSbtTemporarily input.env a b c
  | .revokeSbtDelegation a => revokeSbtDelegation input.env a
  | .generateSbtRecoveryCodes a b => discard (generateSbtRecoveryCodes functions input.env a b)
  | .recoverSbtWithRecoveryCode a b c =>
    discard (recoverSbtWithRecoveryCode functions input.env a b c)

abbrev SbtEvent : Type := Event SbtState SbtInput

abbrev SbtRun (functions : Functions) : List SbtEvent → SbtState → Prop :=
  Run (Executes (execSbt functions)) {}

/-! ### What one call does -/

def lastReceiver (legs : List Leg) (sbtId : Nat) : Option Address :=
  ((legs.filter fun leg => leg.1 = sbtId).map fun leg => leg.2.receiver).getLast?

/-- **Whom a call makes the owner of a token.** -/
def SbtCall.destination : SbtCall → Option Address
  | .mint receiver _ => if sbtId = s.nextTokenId then some receiver else none
  | .batchTransferSbtConditional sbtIds transfers => lastReceiver (sbtIds.zip transfers) sbtId
  | .recoverSbtWithRecoveryCode recovered recoveryCode newHolder =>
    if sbtId = recovered ∧
        (s.recoveryCodes recovered).any (fun codes => functions.sha256 recoveryCode ∈ codes) = true
    then some newHolder else none
  | _ => none

def SbtCall.escrows : SbtCall → Option Nat
  | .escrowSbt sbtId _ _ => some sbtId
  | _ => none

def SbtCall.releases : SbtCall → List Nat
  | .releaseSbtFromEscrow sbtId _ => [sbtId]
  | .atomicReleaseCredentials credentialIds => credentialIds
  | _ => []

def SbtCall.generates : SbtCall → Option (Nat × List Bytes)
  | .generateSbtRecoveryCodes sbtId codes => some (sbtId, List.ofFn codes)
  | _ => none

/-- Every token was minted by an initialised contract, and has a number below the next one. -/
def Counted : Prop :=
  ∀ sbtId, (s.owner sbtId).isSome → s.admin.isSome ∧ sbtId < s.nextTokenId

/-- **What one call does to owners, escrow records and recovery codes.** -/
structure SbtStep (functions : Functions) (input : SbtInput) (s t : SbtState) : Prop where
  owners : ∀ sbtId, t.owner sbtId = (input.call.destination functions s sbtId).or (s.owner sbtId)
  counted : Counted s → Counted t
  kept : ∀ sbtId, (s.escrow sbtId).isSome → (t.escrow sbtId).isSome
  placed : ∀ sbtId, input.call.escrows = some sbtId →
    (s.owner sbtId).isSome ∧ s.escrow sbtId = none ∧ (t.escrow sbtId).isSome
  released : ∀ sbtId ∈ input.call.releases, (s.escrow sbtId).isSome
  codes : ∀ sbtId hashes, t.recoveryCodes sbtId = some hashes →
    (∃ codes, input.call.generates = some (sbtId, codes) ∧ hashes = codes.map functions.sha256) ∨
      (∀ codes, input.call.generates ≠ some (sbtId, codes)) ∧
        ∃ old, s.recoveryCodes sbtId = some old ∧ hashes ⊆ old
  authorised : ∀ sbtId codes, input.call.generates = some (sbtId, codes) →
    ∃ owner, s.owner sbtId = some owner ∧ owner ∈ input.env.signers

/-- The call does what `SbtStep` says. -/
def Steps (functions : Functions) (env : SbtEnv) (s : SbtState) (call : SbtCall) : Prop :=
  (execSbt functions ⟨env, call⟩).wp s fun _ t => SbtStep functions ⟨env, call⟩ s t

section Rules

variable {functions : Functions} {env : SbtEnv} {s t : SbtState}

@[simp] theorem wp_discard {α : Type} (x : SbtTx α) (Q : Unit → SbtState → Prop) :
    (discard x).wp s Q ↔ x.wp s fun _ t => Q () t := by
  simp only [discard, wp_core]

@[simp] theorem wp_requireAdmin (Q : Unit → SbtState → Prop) : (requireAdmin env).wp s Q ↔
      ∀ admin, s.admin = some admin → admin ≠ env.self ∧ admin ∈ env.signers → Q () s := by
  simp only [requireAdmin, wp_core, wp_rules]

@[simp] theorem wp_loadOwner (Q : Address → SbtState → Prop) : (loadOwner sbtId).wp s Q ↔ ∀ owner,
    s.owner sbtId = some owner → Q owner s := by
  simp only [loadOwner, wp_core, wp_rules]

@[simp] theorem wp_requireOwner (Q : Address → SbtState → Prop) : (requireOwner env sbtId).wp s Q ↔
    ∀ owner, s.owner sbtId = some owner → owner ≠ env.self ∧ owner ∈ env.signers → Q owner s := by
  simp only [requireOwner, wp_core, wp_loadOwner, wp_rules]

/-- Two states with the same tokens, owners, escrow records and recovery codes. -/
structure SameRegistry (s t : SbtState) : Prop where
  admin : t.admin = s.admin
  next : t.nextTokenId = s.nextTokenId
  owner : t.owner = s.owner
  escrow : t.escrow = s.escrow
  codes : t.recoveryCodes = s.recoveryCodes

theorem Counted.congr (counted : Counted s) (admin : t.admin = s.admin)
    (next : t.nextTokenId = s.nextTokenId)
    (owner : ∀ sbtId, (t.owner sbtId).isSome → (s.owner sbtId).isSome) : Counted t := by
  intro sbtId present
  rw [admin, next]
  exact counted sbtId (owner sbtId present)

/-! ### Loops -/

theorem isSome_update {sbtId other : Nat} {record : EscrowRecord}
    (present : (s.escrow other).isSome) :
    (update s.escrow sbtId (some record) other).isSome := by
  by_cases same : other = sbtId
  · subst same
    simp
  · simpa [same] using present

theorem recordShares_same (shares : List (Address × Nat)) : (recordShares env sbtId shares).wp s fun
    _ t => SameRegistry s t := by
  induction shares generalizing s with
  | nil =>
    rw [recordShares, wp_pure]
    exact ⟨rfl, rfl, rfl, rfl, rfl⟩
  | cons share rest ih =>
    simp only [recordShares, pushOwnershipHistory, wp_core, wp_rules]
    intro _
    refine ih.mono fun _ t same => ?_
    exact ⟨same.admin, same.next, same.owner, same.escrow, same.codes⟩

theorem collectEscrows_wp (seen : List Nat) (authorized : List Address) (credentialIds : List Nat) :
    (collectEscrows env seen authorized credentialIds).wp s fun _ t =>
      t = s ∧ ∀ sbtId ∈ credentialIds, (s.escrow sbtId).isSome := by
  induction credentialIds generalizing seen authorized with
  | nil =>
    rw [collectEscrows, wp_pure]
    exact ⟨rfl, by simp⟩
  | cons credentialId rest ih =>
    simp only [collectEscrows, wp_core, wp_rules]
    intro _ escrow stored _
    have here : (s.escrow credentialId).isSome := by
      rw [stored]
      rfl
    refine ⟨fun _ _ => ?_, fun _ => ?_⟩ <;>
    · refine (ih _ _).mono ?_
      rintro _ _ ⟨rfl, others⟩
      exact ⟨rfl, forall_mem_cons.mpr ⟨here, others⟩⟩

theorem releaseAll_wp (escrows : List EscrowRecord) :
    (releaseAll escrows).wp s fun _ t => t.admin = s.admin ∧ t.nextTokenId = s.nextTokenId ∧
      t.owner = s.owner ∧ t.recoveryCodes = s.recoveryCodes ∧
      ∀ sbtId, (s.escrow sbtId).isSome → (t.escrow sbtId).isSome := by
  induction escrows generalizing s with
  | nil =>
    rw [releaseAll, wp_pure]
    exact ⟨rfl, rfl, rfl, rfl, fun _ present => present⟩
  | cons escrow rest ih =>
    simp only [releaseAll, setEscrow, wp_core]
    refine ih.mono ?_
    rintro _ t ⟨admin, next, owner, codes, kept⟩
    exact ⟨admin, next, owner, codes, fun sbtId present => kept sbtId (isSome_update present)⟩

theorem validateTransfers_wp (legs : List Leg) : (validateTransfers env legs).wp s fun _ t =>
      t = s ∧ ∀ leg ∈ legs, (s.owner leg.1).isSome := by
  induction legs with
  | nil =>
    rw [validateTransfers, wp_pure]
    exact ⟨rfl, by simp⟩
  | cons leg rest ih =>
    simp only [validateTransfers, wp_core, wp_requireOwner, wp_rules]
    intro owner stored _ _
    have here : (s.owner leg.1).isSome := by
      rw [stored]
      rfl
    refine ih.mono ?_
    rintro _ _ ⟨rfl, others⟩
    exact ⟨rfl, forall_mem_cons.mpr ⟨here, others⟩⟩

theorem lastReceiver_cons (leg : Leg) (rest : List Leg) (sbtId : Nat) :
    lastReceiver (leg :: rest) sbtId =
      (lastReceiver rest sbtId).or (if leg.1 = sbtId then some leg.2.receiver else none) := by
  unfold lastReceiver
  by_cases same : leg.1 = sbtId
  · rw [filter_cons_of_pos (by simpa using same), map_cons, List.getLast?_cons, if_pos same]
    cases ((rest.filter fun leg => leg.1 = sbtId).map fun leg => leg.2.receiver).getLast? <;> rfl
  · rw [filter_cons_of_neg (by simpa using same), if_neg same, Option.or_none]

theorem exists_leg_of_lastReceiver {legs : List Leg} {sbtId : Nat} {receiver : Address}
    (last : lastReceiver legs sbtId = some receiver) : ∃ leg ∈ legs, leg.1 = sbtId := by
  obtain ⟨leg, member, -⟩ := mem_map.mp (mem_of_getLast? last)
  obtain ⟨listed, same⟩ := mem_filter.mp member
  exact ⟨leg, listed, of_decide_eq_true same⟩

theorem applyTransfers_wp (legs : List Leg) :
    (applyTransfers legs).wp s fun _ t => t.admin = s.admin ∧ t.nextTokenId = s.nextTokenId ∧
      t.escrow = s.escrow ∧ t.recoveryCodes = s.recoveryCodes ∧
      ∀ sbtId, t.owner sbtId = (lastReceiver legs sbtId).or (s.owner sbtId) := by
  induction legs generalizing s with
  | nil =>
    rw [applyTransfers, wp_pure]
    exact ⟨rfl, rfl, rfl, rfl, fun _ => rfl⟩
  | cons leg rest ih =>
    obtain ⟨moved, instruction⟩ := leg
    simp only [applyTransfers, setOwner, removeDelegation, wp_core]
    refine ih.mono ?_
    rintro _ t ⟨admin, next, escrow, codes, owners⟩
    refine ⟨admin, next, escrow, codes, fun sbtId => ?_⟩
    rw [owners, lastReceiver_cons]
    by_cases same : moved = sbtId
    · subst same
      simp only [update_self, if_true, Option.or_assoc, Option.some_or]
    · simp only [update_of_ne (Ne.symm same), if_neg same, Option.or_none]

end Rules

section Step

variable {functions : Functions} {env : SbtEnv} {s t : SbtState} {call : SbtCall}

/-- A call that concerns neither owners nor escrow nor codes. -/
structure SbtCall.Quiet (call : SbtCall) : Prop where
  destination : ∀ functions s sbtId, call.destination functions s sbtId = none
  escrows : call.escrows = none
  releases : call.releases = []
  generates : call.generates = none

theorem codes_kept (silent : call.generates = none) (same : t.recoveryCodes = s.recoveryCodes)
    (sbtId : Nat) (hashes : List Hash) (stored : t.recoveryCodes sbtId = some hashes) :
    (∃ codes, call.generates = some (sbtId, codes) ∧ hashes = codes.map functions.sha256) ∨
      (∀ codes, call.generates ≠ some (sbtId, codes)) ∧
        ∃ old, s.recoveryCodes sbtId = some old ∧ hashes ⊆ old := by
  rw [same] at stored
  refine .inr ⟨fun codes generated => ?_, hashes, stored, List.Subset.refl _⟩
  rw [silent] at generated
  cases generated

theorem SbtStep.of_same (quiet : call.Quiet) (same : SameRegistry s t) :
    SbtStep functions ⟨env, call⟩ s t where
  owners sbtId := by
    rw [quiet.destination, Option.none_or, same.owner]
  counted counted := by
    refine counted.congr same.admin same.next fun sbtId present => ?_
    rw [← same.owner]
    exact present
  kept sbtId present := by
    rw [same.escrow]
    exact present
  placed sbtId placed := by
    rw [quiet.escrows] at placed
    cases placed
  released sbtId member := by
    rw [quiet.releases] at member
    cases member
  codes := codes_kept quiet.generates same.codes
  authorised sbtId codes generated := by
    rw [quiet.generates] at generated
    cases generated

@[simp] theorem initializeContract_step (admin : Address) :
    Steps functions env s (.initializeContract admin) := by
  simp only [Steps, execSbt.eq_def, initializeContract, wp_core, wp_rules]
  intro blank _
  refine ⟨fun _ => rfl, fun counted sbtId present => ?_, fun _ present => present,
    (by rintro _ ⟨⟩), (by rintro _ ⟨⟩), codes_kept rfl rfl, (by rintro _ _ ⟨⟩)⟩
  -- nothing was minted before
  have impossible := (counted sbtId present).1
  rw [blank] at impossible
  cases impossible

@[simp] theorem mint_step (receiver : Address) (metadata : Bytes) :
    Steps functions env s (.mint receiver metadata) := by
  simp only [Steps, execSbt.eq_def, wp_discard, mint, setOwner, wp_core, wp_requireAdmin, wp_rules]
  intro admin stored _ _ _
  refine ⟨fun sbtId => ?_, fun counted sbtId present => ?_, fun _ present => present,
    (by rintro _ ⟨⟩), (by rintro _ ⟨⟩), codes_kept rfl rfl, (by rintro _ _ ⟨⟩)⟩
  · by_cases same : sbtId = s.nextTokenId
    · subst same
      simp [SbtCall.destination]
    · simp [SbtCall.destination, same]
  · refine ⟨by simp [stored], ?_⟩
    by_cases same : sbtId = s.nextTokenId
    · subst same
      exact Nat.lt_succ_self _
    · simp only [update_of_ne same] at present
      exact (counted sbtId present).2.trans (Nat.lt_succ_self _)

@[simp] theorem escrowSbt_step (escrowAgent : Address) (conditions : Bytes) :
    Steps functions env s (.escrowSbt sbtId escrowAgent conditions) := by
  simp only [Steps, execSbt.eq_def, wp_discard, escrowSbt, setEscrow, wp_core, wp_requireOwner,
    wp_rules]
  intro owner stored _ free _
  refine ⟨fun _ => rfl, fun counted => counted, fun _ present => isSome_update present,
    fun other placed => ?_, (by rintro _ ⟨⟩), codes_kept rfl rfl,
    (by rintro _ _ ⟨⟩)⟩
  obtain rfl := Option.some.inj placed
  simp [stored, free]

@[simp] theorem releaseSbtFromEscrow_step (proof : Bytes) :
    Steps functions env s (.releaseSbtFromEscrow sbtId proof) := by
  simp only [Steps, execSbt.eq_def, releaseSbtFromEscrow, setEscrow, wp_core, wp_rules]
  intro escrow stored _ _
  refine ⟨fun _ => rfl, fun counted => counted, fun _ present => isSome_update present,
    (by rintro _ ⟨⟩), fun other member => ?_, codes_kept rfl rfl,
    (by rintro _ _ ⟨⟩)⟩
  rw [mem_singleton.mp member, stored]
  rfl

@[simp] theorem atomicReleaseCredentials_step (credentialIds : List Nat) :
    Steps functions env s (.atomicReleaseCredentials credentialIds) := by
  simp only [Steps, execSbt.eq_def, wp_discard, atomicReleaseCredentials, wp_core, wp_rules]
  intro _ _
  refine (collectEscrows_wp [] [] credentialIds).mono ?_
  rintro escrows _ ⟨rfl, validated⟩
  refine (releaseAll_wp escrows).mono ?_
  rintro _ t ⟨admin, next, owner, codes, kept⟩
  refine ⟨fun sbtId => ?_, fun counted => ?_, kept, (by rintro _ ⟨⟩), validated,
    codes_kept rfl codes, (by rintro _ _ ⟨⟩)⟩
  · rw [owner]
    rfl
  · refine counted.congr admin next fun sbtId present => ?_
    rw [← owner]
    exact present

@[simp] theorem batchTransferSbtConditional_step (sbtIds : List Nat)
    (transfers : List TransferInstruction) :
    Steps functions env s (.batchTransferSbtConditional sbtIds transfers) := by
  simp only [Steps, execSbt.eq_def, batchTransferSbtConditional, wp_bind, wp_rules]
  intro _ _
  refine (validateTransfers_wp (sbtIds.zip transfers)).mono ?_
  rintro _ _ ⟨rfl, exist⟩
  refine (applyTransfers_wp (sbtIds.zip transfers)).mono ?_
  rintro _ t ⟨admin, next, escrow, codes, owners⟩
  refine ⟨owners, fun counted => ?_, fun sbtId present => ?_, (by rintro _ ⟨⟩),
    (by rintro _ ⟨⟩), codes_kept rfl codes, (by rintro _ _ ⟨⟩)⟩
  · refine counted.congr admin next fun sbtId present => ?_
    rw [owners] at present
    cases moved : lastReceiver (sbtIds.zip transfers) sbtId with
    | none =>
      rw [moved, Option.none_or] at present
      exact present
    | some receiver =>
      obtain ⟨leg, member, rfl⟩ := exists_leg_of_lastReceiver moved
      exact exist leg member
  · rw [escrow]
    exact present

@[simp] theorem generateSbtRecoveryCodes_step (codes : Fin recoveryCodeCount → Bytes) :
    Steps functions env s (.generateSbtRecoveryCodes sbtId codes) := by
  simp only [Steps, execSbt.eq_def, wp_discard, generateSbtRecoveryCodes, wp_core, wp_requireOwner]
  intro owner stored signed
  refine ⟨fun _ => rfl, fun counted => counted, fun _ present => present, (by rintro _ ⟨⟩),
    (by rintro _ ⟨⟩), fun other hashes kept => ?_, fun other list generated => ?_⟩
  · rcases update_eq_some_iff.mp kept with ⟨rfl, rfl⟩ | ⟨ne, old⟩
    · exact .inl ⟨List.ofFn codes, rfl, rfl⟩
    · refine .inr ⟨fun list generated => ne ?_, hashes, old, List.Subset.refl _⟩
      exact (congrArg Prod.fst (Option.some.inj generated)).symm
  · obtain rfl : sbtId = other := congrArg Prod.fst (Option.some.inj generated)
    exact ⟨owner, stored, signed.2⟩

@[simp] theorem recoverSbtWithRecoveryCode_step (recoveryCode : Bytes) (newHolder : Address) :
    Steps functions env s (.recoverSbtWithRecoveryCode sbtId recoveryCode newHolder) := by
  simp only [Steps, execSbt.eq_def, wp_discard, recoverSbtWithRecoveryCode, enforceRecoveryRateLimit,
    setOwner, removeDelegation, wp_core, wp_rules, wp_loadOwner]
  intro _ owner held _ _ hashes stored
  refine ⟨fun known => ?_, fun unknown => ?_⟩
  · refine ⟨fun other => ?_, fun counted other present => ?_, fun _ present => present,
      (by rintro _ ⟨⟩), (by rintro _ ⟨⟩), fun other codes kept => ?_,
      (by rintro _ _ ⟨⟩)⟩
    · by_cases same : other = sbtId
      · subst same
        simp [SbtCall.destination, stored, known]
      · simp [SbtCall.destination, same]
    · by_cases same : other = sbtId
      · subst same
        exact counted other (by rw [held]; rfl)
      · simp only [update_of_ne same] at present
        exact counted other present
    · refine .inr ⟨by rintro _ ⟨⟩, ?_⟩
      rcases update_eq_some_iff.mp kept with ⟨rfl, rfl⟩ | ⟨-, old⟩
      · exact ⟨hashes, stored, erase_subset⟩
      · exact ⟨codes, old, List.Subset.refl _⟩
  · refine ⟨fun other => ?_, fun counted => counted, fun _ present => present,
      (by rintro _ ⟨⟩), (by rintro _ ⟨⟩), codes_kept rfl rfl, (by rintro _ _ ⟨⟩)⟩
    have refused : (SbtCall.recoverSbtWithRecoveryCode sbtId recoveryCode newHolder).destination
        functions s other = none := by simp [SbtCall.destination, stored, unknown]
    rw [refused]
    rfl

theorem execSbt_step {input : SbtInput} :
    (execSbt functions input).wp s fun _ t => SbtStep functions input s t := by
  obtain ⟨env, call⟩ := input
  show Steps functions env s call
  cases call with
  | compressSbtMetadata sbtId =>
    simp only [Steps, execSbt.eq_def, wp_discard, compressSbtMetadata, wp_core, wp_requireOwner,
      wp_rules]
    refine fun _ _ _ => ⟨fun _ => ?_, fun _ _ _ _ => ⟨fun _ => ?_, fun _ => ?_⟩⟩ <;>
    exact .of_same ⟨fun _ _ _ => rfl, rfl, rfl, rfl⟩ ⟨rfl, rfl, rfl, rfl, rfl⟩
  | createFractionalSbt sbtId holders fractions =>
    simp only [Steps, execSbt.eq_def, wp_discard, createFractionalSbt, wp_core, wp_requireOwner,
      wp_rules]
    intro _ _ _ _ _ _
    refine (recordShares_same sbtId (holders.zip fractions)).mono fun _ t same => ?_
    exact .of_same ⟨fun _ _ _ => rfl, rfl, rfl, rfl⟩
      ⟨same.admin, same.next, same.owner, same.escrow, same.codes⟩
  | composeSbtWithNft | decomposeSbt | setCompositionComponents | setSharedMetadata
  | delegateSbtTemporarily | revokeSbtDelegation =>
    simp only [Steps, execSbt.eq_def, composeSbtWithNft, decomposeSbt, setCompositionComponents,
      setSharedMetadata, delegateSbtTemporarily, revokeSbtDelegation, removeDelegation,
      pushDelegationHistory, wp_core, wp_requireOwner, wp_rules]
    intros
    exact .of_same ⟨fun _ _ _ => rfl, rfl, rfl, rfl⟩ ⟨rfl, rfl, rfl, rfl, rfl⟩
  | _ => simp

end Step

section Runs

variable {functions : Functions} {history : List SbtEvent} {s : SbtState}

theorem run_at {start : SbtState} {earlier later : List SbtEvent} {event : SbtEvent}
    (run : Run (Executes (execSbt functions)) start history s)
    (whole : history = earlier ++ event :: later) :
    Run (Executes (execSbt functions)) start earlier event.before ∧
      SbtStep functions event.input event.before event.after ∧
      Run (Executes (execSbt functions)) event.after later s := by
  obtain ⟨first, ran, rest⟩ := run.at_split whole
  exact ⟨first, execSbt_step () _ ran, rest⟩

theorem run_counted (run : SbtRun functions history s) : Counted s :=
  run.invariant Counted (fun _ _ => True) (by simp [Counted])
    (fun _ _ _ counted _ ran => (execSbt_step () _ ran).counted counted) (fun _ _ => trivial)

end Runs

end EthosContracts.Sbt
