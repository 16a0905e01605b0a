/-
**The `zk_verifier` contract**: oracles, attestations, credentials and their parents.

A claim counts as proved when a registered oracle has attested the pair of a proof and a claim. The
contract stores one record per pair of hashes, numbers the pairs as credentials, and links derived
credentials to their parents.
-/

import EthosContracts.Soroban
import EthosContracts.Lib.Replay
import EthosContracts.Lib.Table

namespace EthosContracts.ZkVerifier

open Lib Soroban Function
open TtlVault (Address Bytes Hash maxU64 saturatingAdd)

/-! ### Storage -/

def maxProofSize : Nat := 4096
def maxClaimSize : Nat := 1024
def maxCredentialSnapshots : Nat := 1000
def maxCredentialChainDepth : Nat := 32
def consistencyCheckInterval : Nat := 30 * 24 * 60 * 60

inductive VerifierError
  | emptyProof
  | emptyClaim
  | proofTooLarge
  | claimTooLarge
  | alreadyInitialized
  | notInitialized
  | oracleNotFound
  | emptyBatchIds
  | mismatchedBatchLengths
  | credentialNotFound
  | selfReferentialParent
  | parentAlreadySet
  | credentialChainTooDeep
  | parentCredentialInvalid
  | externalFormatTooLarge
  | invalidMaskSpec
  | accessDenied
  | batchTooLarge
deriving DecidableEq

structure AttestationRecord where
  credentialId : Nat
  oracle : Address
  nextCheckDue : Nat
deriving DecidableEq

structure CredentialSnapshot where
  credentialId : Nat
  oracle : Address
  invalidated : Bool
  timestamp : Nat
  version : Nat
deriving DecidableEq

structure VerificationRecord where
  timestamp : Nat
  verified : Bool
  oracle : Address
deriving DecidableEq

structure MaskingConfig where
  maskedFields : Hash
  version : Nat

inductive PrivacyLevel
  | publicRecord
  | internalRecord
  | confidentialRecord
deriving DecidableEq

abbrev PairHash : Type := Hash × Hash

/-- `DataKey::Attestation` is read from the instance storage in one place and from the persistent
storage everywhere else, and the two are different maps. -/
structure VerifierState where
  admin : Option Address := none
  /-- An oracle without an entry is not registered. -/
  oracle : Address → Bool := fun _ => false
  /-- `Attestation` in the persistent storage. -/
  attestation : PairHash → Option AttestationRecord := fun _ => none
  /-- `Attestation` in the instance storage. -/
  instanceAttestation : PairHash → Option AttestationRecord := fun _ => none
  credentialCount : Nat := 0
  credentialHashes : Nat → Option PairHash := fun _ => none
  credentialInvalidated : Nat → Bool := fun _ => false
  credentialSnapshot : Nat × Nat → Option CredentialSnapshot := fun _ => none
  snapshotTimestamps : Nat → List Nat := fun _ => []
  snapshotVersions : Nat → List Nat := fun _ => []
  credentialParent : Nat → Option Nat := fun _ => none
  credentialPrivacy : Nat → Option PrivacyLevel := fun _ => none
  verificationHistory : Hash → List VerificationRecord := fun _ => []
  maskingConfig : Hash → Option MaskingConfig := fun _ => none

abbrev VerifierTx (α : Type) : Type := Tx (Halt VerifierError) VerifierState α

variable (env : Caller) (credentialId : Nat) (oracle : Address)

/-! ### Helpers -/

def requireAdmin : VerifierTx Unit := do
  let stored ← read VerifierState.admin
  let admin ← found stored .notInitialized
  requireAuth env admin

def requireRegisteredOracle : VerifierTx Unit := do
  let registered ← read (·.oracle oracle)
  require (registered = true) .oracleNotFound

/-- The number of a pair. The existing one is looked up in the instance storage. -/
def mintOrReuseCredentialId (pair : PairHash) : VerifierTx Nat := do
  let stored ← read (·.instanceAttestation pair)
  match stored with
  | some existing => pure existing.credentialId
  | none => do
    let count ← read VerifierState.credentialCount
    let credentialId ← bounded maxU64 (count + 1)
    write fun s => { s with
      credentialCount := credentialId
      credentialHashes := update s.credentialHashes credentialId (some pair) }
    pure credentialId

def storeAttestation (pair : PairHash) (credentialId : Nat) (oracle : Address) : VerifierTx Unit :=
  write fun s => { s with
    attestation := update s.attestation pair
      (some ⟨credentialId, oracle, saturatingAdd env.now consistencyCheckInterval⟩) }

/-- One more snapshot, and the oldest one removed beyond the limit. -/
def recordCredentialSnapshot (invalidated : Bool) : VerifierTx Unit := do
  let timestamps ← read (·.snapshotTimestamps credentialId)
  let versions ← read (·.snapshotVersions credentialId)
  let version ← bounded (2 ^ 32 - 1) (versions.getLast?.getD 0 + 1)
  write fun s => { s with
    credentialSnapshot := update s.credentialSnapshot (credentialId, env.now)
      (some ⟨credentialId, oracle, invalidated, env.now, version⟩) }
  let allTimestamps := timestamps ++ [env.now]
  let allVersions := versions ++ [version]
  if maxCredentialSnapshots < allTimestamps.length then
    write fun s => { s with
      credentialSnapshot :=
        update s.credentialSnapshot (credentialId, allTimestamps.headD 0) none
      snapshotTimestamps := update s.snapshotTimestamps credentialId allTimestamps.tail
      snapshotVersions := update s.snapshotVersions credentialId allVersions.tail }
  else
    write fun s => { s with
      snapshotTimestamps := update s.snapshotTimestamps credentialId allTimestamps
      snapshotVersions := update s.snapshotVersions credentialId allVersions }

/-- The walk up the chain of parents, with the hops that are left. -/
def validateCredentialChain (s : VerifierState) (hops current : Nat) :
    Except (Halt VerifierError) Unit :=
  if s.credentialInvalidated current then .error (.error .parentCredentialInvalid)
  else
    match s.credentialParent current, hops with
    | none, _ => .ok ()
    | some _, 0 => .error (.error .credentialChainTooDeep)
    | some parent, hops + 1 => validateCredentialChain s hops parent

/-- The parent of a credential is set once. -/
def setParent (parentId : Nat) : VerifierTx Unit := do
  let stored ← read (·.credentialParent credentialId)
  require (∀ existing ∈ stored, existing = parentId) .parentAlreadySet
  write fun s => { s with
    credentialParent := update s.credentialParent credentialId (some parentId) }

def isAdmin (s : VerifierState) (address : Address) : Bool := s.admin = some address

/-! ### Entry points -/

section Hashing

variable (sha256 : Bytes → Hash)

def hashes (pair : Bytes × Bytes) : PairHash := (sha256 pair.1, sha256 pair.2)

def initializeContract (admin : Address) : VerifierTx Unit := do
  let stored ← read VerifierState.admin
  require (stored = none) .alreadyInitialized
  requireAuth env admin
  write fun s => { s with admin := some admin }

def registerOracle : VerifierTx Unit := do
  requireAdmin env
  write fun s => { s with oracle := update s.oracle oracle true }

def revokeOracle : VerifierTx Unit := do
  requireAdmin env
  write fun s => { s with oracle := update s.oracle oracle false }

def attest (env : Caller) (oracle : Address) (proof claim : Bytes) : VerifierTx Nat := do
  require (proof ≠ []) .emptyProof
  require (claim ≠ []) .emptyClaim
  requireRegisteredOracle oracle
  requireAuth env oracle
  let credentialId ← mintOrReuseCredentialId (hashes sha256 (proof, claim))
  storeAttestation env (hashes sha256 (proof, claim)) credentialId oracle
  let invalidated ← read (·.credentialInvalidated credentialId)
  recordCredentialSnapshot env credentialId oracle invalidated
  pure credentialId

def createDerivedCredential (env : Caller) (oracle : Address) (parentId : Nat)
    (proof claim : Bytes) : VerifierTx Nat := do
  require (proof ≠ []) .emptyProof
  require (claim ≠ []) .emptyClaim
  let parentHashes ← read (·.credentialHashes parentId)
  require (parentHashes.isSome) .credentialNotFound
  consult (validateCredentialChain · maxCredentialChainDepth parentId)
  requireRegisteredOracle oracle
  requireAuth env oracle
  let credentialId ← mintOrReuseCredentialId (hashes sha256 (proof, claim))
  require (credentialId ≠ parentId) .selfReferentialParent
  setParent credentialId parentId
  storeAttestation env (hashes sha256 (proof, claim)) credentialId oracle
  let invalidated ← read (·.credentialInvalidated credentialId)
  recordCredentialSnapshot env credentialId oracle invalidated
  pure credentialId

/-- Whether the stored record of the pair names a registered oracle. -/
def verifyInternal (proof claim : Bytes) : VerifierTx Bool := do
  require (proof ≠ []) .emptyProof
  require (proof.length ≤ maxProofSize) .proofTooLarge
  require (claim ≠ []) .emptyClaim
  require (claim.length ≤ maxClaimSize) .claimTooLarge
  read fun s => (s.attestation (hashes sha256 (proof, claim))).any fun record =>
    s.oracle record.oracle

def recordVerification (proofHash : Hash) (verified : Bool) : VerifierTx Unit :=
  write fun s => { s with
    verificationHistory := update s.verificationHistory proofHash
      (s.verificationHistory proofHash ++ [⟨env.now, verified, env.self⟩]) }

def verifyClaim (env : Caller) (proof claim : Bytes) : VerifierTx Bool := do
  let result ← verifyInternal sha256 proof claim
  if result then recordVerification env (sha256 proof) true
  pure result

def setCredentialPrivacy (level : PrivacyLevel) : VerifierTx Unit := do
  requireAdmin env
  let stored ← read (·.credentialHashes credentialId)
  require (stored.isSome) .credentialNotFound
  write fun s => { s with
    credentialPrivacy := update s.credentialPrivacy credentialId (some level) }

def rescheduleConsistencyCheck (caller : Address) (credentialId : Nat) : VerifierTx Unit := do
  let stored ← read (·.credentialHashes credentialId)
  let pair ← found stored .credentialNotFound
  let attested ← read (·.attestation pair)
  let record ← found attested .credentialNotFound
  let admin ← read (isAdmin · caller)
  require (admin = true ∨ caller = record.oracle) .accessDenied
  requireAuth env caller
  write fun s => { s with
    attestation := update s.attestation pair
      (some { record with nextCheckDue := saturatingAdd env.now consistencyCheckInterval }) }

/-! ### Runs -/

inductive VerifierCall
  | initializeContract (admin : Address)
  | registerOracle (oracle : Address)
  | revokeOracle (oracle : Address)
  | attest (oracle : Address) (proof claim : Bytes)
  | createDerivedCredential (oracle : Address) (parentId : Nat) (proof claim : Bytes)
  | verifyClaim (proof claim : Bytes)
  | setCredentialPrivacy (credentialId : Nat) (level : PrivacyLevel)
  | rescheduleConsistencyCheck (caller : Address) (credentialId : Nat)

structure VerifierInput where
  env : Caller
  call : VerifierCall

/-- The entry points as the inputs of a run. -/
def execVerifier (input : VerifierInput) : VerifierTx Unit :=
  match input.call with
  | .initializeContract a => initializeContract input.env a
  | .registerOracle a => registerOracle input.env a
  | .revokeOracle a => revokeOracle input.env a
  | .attest a b c => do
    let _ ← attest sha256 input.env a b c
    pure ()
  | .createDerivedCredential a b c d => do
    let _ ← createDerivedCredential sha256 input.env a b c d
    pure ()
  | .verifyClaim a b => do
    let _ ← verifyClaim sha256 input.env a b
    pure ()
  | .setCredentialPrivacy a b => setCredentialPrivacy input.env a b
  | .rescheduleConsistencyCheck caller a => rescheduleConsistencyCheck input.env caller a

abbrev VerifierEvent : Type := Event VerifierState VerifierInput

abbrev VerifierRun : List VerifierEvent → VerifierState → Prop :=
  Run (Executes (execVerifier sha256)) {}

def VerifierCall.attests : VerifierCall → Option (Address × (Bytes × Bytes))
  | .attest oracle proof claim => some (oracle, (proof, claim))
  | .createDerivedCredential oracle _ proof claim => some (oracle, (proof, claim))
  | _ => none

def issuedId (event : VerifierEvent) : Option Nat :=
  match event.input.call with
  | .attest oracle proof claim =>
    (attest sha256 event.input.env oracle proof claim event.before).toOption.map Prod.fst
  | .createDerivedCredential oracle parentId proof claim =>
    (createDerivedCredential sha256 event.input.env oracle parentId proof claim
      event.before).toOption.map Prod.fst
  | _ => none

/-! ### What one call does -/

/-- **A pair has been attested**: it has the next number, and its record names the oracle. -/
structure Issued (env : Caller) (oracle : Address) (pair : Bytes × Bytes) (parent : Option Nat)
    (id : Nat) (s t : VerifierState) : Prop where
  fresh : id = s.credentialCount + 1
  count : t.credentialCount = id
  table : t.credentialHashes = update s.credentialHashes id (some (hashes sha256 pair))
  records : t.attestation = update s.attestation (hashes sha256 pair)
    (some ⟨id, oracle, saturatingAdd env.now consistencyCheckInterval⟩)
  parents : t.credentialParent = s.credentialParent ∧ parent = none ∨
    ∃ parentId, parent = some parentId ∧ parentId ≠ id ∧
      (∀ existing ∈ s.credentialParent id, existing = parentId) ∧
      t.credentialParent = update s.credentialParent id (some parentId)
  unused : t.instanceAttestation = s.instanceAttestation

/-- Two states with the same records, credentials and parents. -/
structure SameBooks (s t : VerifierState) : Prop where
  records : t.attestation = s.attestation
  count : t.credentialCount = s.credentialCount
  table : t.credentialHashes = s.credentialHashes
  parents : t.credentialParent = s.credentialParent
  unused : t.instanceAttestation = s.instanceAttestation

/-- **What one call does to the records**: it attests a pair, moves the check of one, or leaves them
alone. -/
inductive VerifierStep (input : VerifierInput) (s t : VerifierState) : Prop
  | issues (oracle pair parent id) (call : input.call.attests = some (oracle, pair))
      (returned : issuedId sha256 ⟨s, input, t⟩ = some id)
      (issued : Issued sha256 input.env oracle pair parent id s t)
  | reschedules (pair record due) (call : input.call.attests = none)
      (stored : s.attestation pair = some record) (after : t = { s with
        attestation :=
          update s.attestation pair (some { record with nextCheckDue := due }) })
  | keeps (call : input.call.attests = none) (same : SameBooks s t)

section Step

variable {sha256} {env : Caller} {s : VerifierState}

@[simp] theorem wp_requireAdmin (Q : Unit → VerifierState → Prop) : (requireAdmin env).wp s Q ↔
      ∀ admin, s.admin = some admin → admin ≠ env.self ∧ admin ∈ env.signers → Q () s := by
  simp only [requireAdmin, wp_core, wp_rules]

theorem recordCredentialSnapshot_books (invalidated : Bool) :
    (recordCredentialSnapshot env credentialId oracle invalidated).wp s fun _ t => SameBooks s t :=
    by
  simp only [recordCredentialSnapshot, wp_core, wp_rules]
  exact fun _ => ⟨fun _ => ⟨rfl, rfl, rfl, rfl, rfl⟩, fun _ => ⟨rfl, rfl, rfl, rfl, rfl⟩⟩

theorem mintOrReuseCredentialId_wp {pair : PairHash} (unused : s.instanceAttestation pair = none) :
    (mintOrReuseCredentialId pair).wp s fun id t => id = s.credentialCount + 1 ∧ t = { s with
        credentialCount := id
        credentialHashes := update s.credentialHashes id (some pair) } := by
  simp only [mintOrReuseCredentialId, wp_core, unused, wp_rules]
  exact fun _ => ⟨trivial, trivial⟩

theorem attest_wp (oracle : Address) (proof claim : Bytes)
    (unused : ∀ pair, s.instanceAttestation pair = none) :
    (attest sha256 env oracle proof claim).wp s fun id t =>
      Issued sha256 env oracle (proof, claim) none id s t := by
  simp only [attest, requireRegisteredOracle, storeAttestation, wp_bind, wp_read, wp_rules,
    wp_write]
  intro _ _ _ _
  refine (mintOrReuseCredentialId_wp (unused _)).mono ?_
  rintro id _ ⟨fresh, rfl⟩
  refine (recordCredentialSnapshot_books id oracle _).mono fun _ t same => ?_
  rw [wp_pure]
  exact ⟨fresh, same.count, same.table, same.records, .inl ⟨same.parents, rfl⟩, same.unused⟩

theorem createDerivedCredential_wp (oracle : Address) (parentId : Nat) (proof claim : Bytes)
    (unused : ∀ pair, s.instanceAttestation pair = none) :
    (createDerivedCredential sha256 env oracle parentId proof claim).wp s fun id t =>
      Issued sha256 env oracle (proof, claim) (some parentId) id s t := by
  simp only [createDerivedCredential, requireRegisteredOracle, setParent, storeAttestation, wp_bind,
    wp_read, wp_rules, wp_consult, wp_write]
  intro _ _ _ _ _ _ _
  refine (mintOrReuseCredentialId_wp (unused _)).mono ?_
  rintro id _ ⟨fresh, rfl⟩ other set
  refine (recordCredentialSnapshot_books id oracle _).mono fun _ t same => ?_
  rw [wp_pure]
  exact ⟨fresh, same.count, same.table, same.records,
    .inr ⟨parentId, rfl, other.symm, set, same.parents⟩, same.unused⟩

theorem execVerifier_step {input : VerifierInput}
    (unused : ∀ pair, s.instanceAttestation pair = none) :
    (execVerifier sha256 input).wp s fun _ t => VerifierStep sha256 input s t := by
  obtain ⟨env, call⟩ := input
  unfold execVerifier
  cases call with
  | initializeContract | registerOracle | revokeOracle | setCredentialPrivacy =>
    simp only [initializeContract, registerOracle, revokeOracle, setCredentialPrivacy, wp_core,
      wp_rules, wp_requireAdmin]
    intros
    exact .keeps rfl ⟨rfl, rfl, rfl, rfl, rfl⟩
  | attest oracle proof claim =>
    intro _ t ran
    obtain ⟨id, after, attested, rest⟩ := bind_eq_ok.mp ran
    cases rest
    refine .issues oracle (proof, claim) none id rfl ?_ (attest_wp oracle proof claim unused _ _
      attested)
    simp only [issuedId, attested]
    rfl
  | createDerivedCredential oracle parentId proof claim =>
    intro _ t ran
    obtain ⟨id, after, derived, rest⟩ := bind_eq_ok.mp ran
    cases rest
    refine .issues oracle (proof, claim) (some parentId) id rfl ?_
      (createDerivedCredential_wp oracle parentId proof claim unused _ _ derived)
    simp only [issuedId, derived]
    rfl
  | verifyClaim =>
    simp only [verifyClaim, verifyInternal, recordVerification, wp_core, wp_rules]
    exact fun _ _ _ _ => ⟨fun _ => .keeps rfl ⟨rfl, rfl, rfl, rfl, rfl⟩,
      fun _ => .keeps rfl ⟨rfl, rfl, rfl, rfl, rfl⟩⟩
  | rescheduleConsistencyCheck =>
    simp only [rescheduleConsistencyCheck, wp_core, wp_rules]
    exact fun pair _ record stored _ _ => .reschedules pair record _ rfl stored rfl

theorem VerifierStep.unused {input : VerifierInput} {t : VerifierState}
    (stepped : VerifierStep sha256 input s t) : t.instanceAttestation = s.instanceAttestation := by
  cases stepped with
  | issues _ _ _ _ _ _ issued => exact issued.unused
  | reschedules _ _ _ _ _ after => rw [after]
  | keeps _ same => exact same.unused

end Step

section Runs

variable {sha256} {history : List VerifierEvent} {s : VerifierState}

variable (run : VerifierRun sha256 history s)
include run

theorem run_unused : ∀ pair, s.instanceAttestation pair = none := by
  refine run.invariant (fun s => ∀ pair, s.instanceAttestation pair = none) (fun _ _ => True)
    (fun _ => rfl) (fun s input t unused _ ran pair => ?_) (fun _ _ => trivial)
  rw [(execVerifier_step unused () t ran).unused]
  exact unused pair

theorem run_induction (inv : List VerifierEvent → VerifierState → Prop) (initial : inv [] {})
    (kept : ∀ history s input t, inv history s → VerifierStep sha256 input s t →
      inv (history ++ [⟨s, input, t⟩]) t) :
    inv history s :=
  run.history_invariant inv initial fun history s input t before holds ran =>
    kept history s input t holds (execVerifier_step (run_unused before) () t ran)

end Runs

end Hashing

end EthosContracts.ZkVerifier
