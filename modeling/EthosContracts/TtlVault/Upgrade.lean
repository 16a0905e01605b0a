/-
**Upgrades: the recorded baseline, the pending proposal and the timelock.**

The code is replaced in two calls of the admin: one of the `propose_*` calls stores a proposal, and
`execute_upgrade` installs it a day later at the earliest. What a candidate declares is compared
with a baseline, `UpgradeManifest`, and with the fingerprint of the function signatures, which is
stored apart from it and by the signed calls only.
-/

import EthosContracts.TtlVault.Call
import EthosContracts.TtlVault.Rules

namespace EthosContracts.TtlVault

open Lib

/-! ### Storage -/

def upgradeTimelock : Nat := 86400

structure UpgradeManifest where
  exportedFnCount : Nat
  errorCodeCount : Nat
  storageSchemaHash : Hash
  version : Nat
deriving DecidableEq

structure UpgradeProposal where
  wasmHash : Hash
  exportedFnCount : Nat
  errorCodeCount : Nat
  storageSchemaHash : Hash
  functionSignaturesHash : Option Bytes
  proposedAt : Nat
deriving DecidableEq

/-- The keys of the upgrade calls, and the rest of the contract. -/
structure UpgradeState where
  base : State
  upgradeManifest : Option UpgradeManifest := none
  upgradeFunctionSignaturesHash : Option Hash := none
  pendingUpgrade : Option UpgradeProposal := none
  /-- The code that the contract runs. -/
  wasm : Hash := []

abbrev UpgradeTx (α : Type) : Type := Tx Failure UpgradeState α

variable (env : Env) (newWasmHash : Hash) (newExportedFnCount newErrorCodeCount : Nat)

namespace Upgrade

def onBase {α : Type} (x : Contract α) : UpgradeTx α :=
  x.zoom UpgradeState.base fun base s => { s with base := base }

def refuse (condition : Prop) [Decidable condition] (code : ContractError) : UpgradeTx Unit :=
  ensure condition (.error code)

/-! ### Validation -/

def zeroHash : Hash := List.replicate 32 0

def validateUpgrade : UpgradeTx Unit :=
  refuse (newWasmHash ≠ zeroHash) .upgradeInvalidHash

def validateUpgradeCompatibility (newStorageSchemaHash : Hash) : UpgradeTx Unit := do
  let stored ← read UpgradeState.upgradeManifest
  let manifest ← expect stored (.error .upgradeManifestNotSet)
  refuse (manifest.exportedFnCount ≤ newExportedFnCount) .upgradeInterfaceShrunk
  refuse (manifest.errorCodeCount ≤ newErrorCodeCount) .upgradeErrorCodesReduced
  refuse (newStorageSchemaHash = manifest.storageSchemaHash) .upgradeStorageSchemaChanged

def validateUpgradeSigned (newStorageSchemaHash newFunctionSignaturesHash : Hash) : UpgradeTx Unit
    := do
  validateUpgradeCompatibility newExportedFnCount newErrorCodeCount newStorageSchemaHash
  let stored ← read UpgradeState.upgradeFunctionSignaturesHash
  let current ← expect stored (.error .upgradeFunctionSignaturesNotSet)
  refuse (newFunctionSignaturesHash = current) .upgradeFunctionSignaturesChanged

/-! ### Calls -/

def setUpgradeManifest (exportedFnCount errorCodeCount : Nat) (storageSchemaHash : Hash) : UpgradeTx
    Unit := do
  onBase (requireAdmin env)
  let stored ← read UpgradeState.upgradeManifest
  let version := (stored.map fun manifest => manifest.version + 1).getD 1
  ensure (version < 2 ^ 32) .overflow
  write fun s => { s with
    upgradeManifest := some ⟨exportedFnCount, errorCodeCount, storageSchemaHash, version⟩ }

def setUpgradeManifestSigned (exportedFnCount errorCodeCount : Nat)
    (storageSchemaHash functionSignaturesHash : Hash) : UpgradeTx Unit := do
  setUpgradeManifest env exportedFnCount errorCodeCount storageSchemaHash
  write fun s => { s with upgradeFunctionSignaturesHash := some functionSignaturesHash }

/-- A proposal without signatures is refused only while a fingerprint is recorded. -/
def proposeUpgradeInternal (newStorageSchemaHash : Hash) (newFunctionSignaturesHash : Option Hash) :
    UpgradeTx Unit := do
  onBase (requireAdmin env)
  validateUpgrade newWasmHash
  match newFunctionSignaturesHash with
  | some signaturesHash =>
    validateUpgradeSigned newExportedFnCount newErrorCodeCount newStorageSchemaHash signaturesHash
  | none => do
    let recorded ← read UpgradeState.upgradeFunctionSignaturesHash
    refuse (recorded = none) .upgradeFunctionSignaturesRequired
    validateUpgradeCompatibility newExportedFnCount newErrorCodeCount newStorageSchemaHash
  write fun s => { s with
    pendingUpgrade := some ⟨newWasmHash, newExportedFnCount, newErrorCodeCount,
      newStorageSchemaHash, newFunctionSignaturesHash, env.now⟩ }

def upgradeWithManifest (newStorageSchemaHash : Hash) : UpgradeTx Unit :=
  proposeUpgradeInternal env newWasmHash newExportedFnCount newErrorCodeCount newStorageSchemaHash
    none

def proposeUpgradeWithManifest (newStorageSchemaHash : Hash) : UpgradeTx Unit :=
  proposeUpgradeInternal env newWasmHash newExportedFnCount newErrorCodeCount newStorageSchemaHash
    none

def proposeLegacySignedUpgrade (newStorageSchemaHash newFunctionSignaturesHash : Hash) : UpgradeTx
    Unit :=
  proposeUpgradeInternal env newWasmHash newExportedFnCount newErrorCodeCount newStorageSchemaHash
    (some newFunctionSignaturesHash)

def proposeSignedUpgrade (newStorageSchemaHash newFunctionSignaturesHash : Hash) : UpgradeTx Unit :=
  proposeUpgradeInternal env newWasmHash newExportedFnCount newErrorCodeCount newStorageSchemaHash
    (some newFunctionSignaturesHash)

/-- Hash-only upgrades are disabled. -/
def upgrade (_newWasmHash : Hash) : UpgradeTx Unit := do
  onBase (requireAdmin env)
  fail (.error .upgradeManifestRequired)

def signaturesHashFromBytes (bytes : Bytes) : UpgradeTx Hash := do
  refuse (bytes.length = 32) .upgradeFunctionSignaturesChanged
  pure bytes

/-- The comparison of a pending proposal with the baseline at its execution. -/
def validateProposal (proposal : UpgradeProposal) : UpgradeTx Unit :=
  match proposal.functionSignaturesHash with
  | some bytes => do
    let signaturesHash ← signaturesHashFromBytes bytes
    validateUpgradeSigned proposal.exportedFnCount proposal.errorCodeCount
      proposal.storageSchemaHash signaturesHash
  | none =>
    validateUpgradeCompatibility proposal.exportedFnCount proposal.errorCodeCount
      proposal.storageSchemaHash

def executeUpgrade : UpgradeTx Unit := do
  onBase (requireAdmin env)
  let pending ← read UpgradeState.pendingUpgrade
  let proposal ← expect pending (.error .noPendingUpgrade)
  refuse (saturatingAdd proposal.proposedAt upgradeTimelock ≤ env.now) .upgradeTimeLocked
  validateUpgrade proposal.wasmHash
  validateProposal proposal
  let stored ← read UpgradeState.upgradeManifest
  let manifest ← expect stored (.error .upgradeManifestNotSet)
  write fun s => { s with
    wasm := proposal.wasmHash
    upgradeManifest := some ⟨proposal.exportedFnCount, proposal.errorCodeCount,
      proposal.storageSchemaHash, min (manifest.version + 1) (2 ^ 32 - 1)⟩
    upgradeFunctionSignaturesHash := proposal.functionSignaturesHash
    pendingUpgrade := none }

/-! ### Runs -/

inductive UpgradeCall
  | setUpgradeManifest (exportedFnCount errorCodeCount : Nat) (storageSchemaHash : Hash)
  | setUpgradeManifestSigned (exportedFnCount errorCodeCount : Nat)
      (storageSchemaHash functionSignaturesHash : Hash)
  | upgrade (newWasmHash : Hash)
  | upgradeWithManifest (newWasmHash : Hash) (newExportedFnCount newErrorCodeCount : Nat)
      (newStorageSchemaHash : Hash)
  | proposeUpgradeWithManifest (newWasmHash : Hash) (newExportedFnCount newErrorCodeCount : Nat)
      (newStorageSchemaHash : Hash)
  | proposeLegacySignedUpgrade (newWasmHash : Hash) (newExportedFnCount newErrorCodeCount : Nat)
      (newStorageSchemaHash newFunctionSignaturesHash : Hash)
  | proposeSignedUpgrade (newWasmHash : Hash) (newExportedFnCount newErrorCodeCount : Nat)
      (newStorageSchemaHash newFunctionSignaturesHash : Hash)
  | executeUpgrade
  /-- Any other call of the contract. -/
  | other (call : Call)

structure UpgradeInput where
  env : Env
  call : UpgradeCall

def execUpgrade (input : UpgradeInput) : UpgradeTx Unit :=
  match input.call with
  | .setUpgradeManifest a b c => setUpgradeManifest input.env a b c
  | .setUpgradeManifestSigned a b c d => setUpgradeManifestSigned input.env a b c d
  | .upgrade a => upgrade input.env a
  | .upgradeWithManifest a b c d => upgradeWithManifest input.env a b c d
  | .proposeUpgradeWithManifest a b c d => proposeUpgradeWithManifest input.env a b c d
  | .proposeLegacySignedUpgrade a b c d e => proposeLegacySignedUpgrade input.env a b c d e
  | .proposeSignedUpgrade a b c d e => proposeSignedUpgrade input.env a b c d e
  | .executeUpgrade => executeUpgrade input.env
  | .other call => onBase (exec input.env call)

abbrev UpgradeEvent : Type := Event UpgradeState UpgradeInput

/-- A run from the deployment, where nothing is recorded or pending. -/
abbrev UpgradeRun (base : State) : List UpgradeEvent → UpgradeState → Prop :=
  Run (Executes execUpgrade) { base := base }

def UpgradeCall.proposes : UpgradeCall → Option Hash
  | .upgradeWithManifest wasmHash .. | .proposeUpgradeWithManifest wasmHash ..
  | .proposeLegacySignedUpgrade wasmHash .. | .proposeSignedUpgrade wasmHash .. => some wasmHash
  | _ => none

/-! ### The gate -/

/-- An executed upgrade presents the recorded fingerprint. -/
def PresentsSignatures (event : UpgradeEvent) : Prop :=
  event.input.call = .executeUpgrade →
    ∀ recorded ∈ event.before.upgradeFunctionSignaturesHash,
      ∃ proposal ∈ event.before.pendingUpgrade, proposal.functionSignaturesHash = some recorded

/-- An executed upgrade was last proposed a time lock ago. -/
def WaitsTimelock (earlier : List UpgradeEvent) (event : UpgradeEvent) : Prop :=
  event.input.call = .executeUpgrade →
    ∃ before proposed since, earlier = before ++ proposed :: since ∧
      proposed.input.call.proposes = some event.after.wasm ∧
      (∀ other ∈ since, other.input.call.proposes ≠ some event.after.wasm) ∧
      proposed.input.env.now + upgradeTimelock ≤ event.input.env.now

/-- **The upgrade gate**, at every executed upgrade of a run. -/
def UpgradeGate (history : List UpgradeEvent) : Prop :=
  ∀ earlier event later, history = earlier ++ event :: later →
    PresentsSignatures event ∧ WaitsTimelock earlier event

/-- No fingerprint is recorded behind an unsigned proposal, and the timelock does not saturate. -/
def OrderlyUpgrade (s : UpgradeState) (input : UpgradeInput) : Prop :=
  match input.call with
  | .setUpgradeManifestSigned .. =>
    ∀ proposal ∈ s.pendingUpgrade, proposal.functionSignaturesHash ≠ none
  | .executeUpgrade => input.env.now < maxU64
  | _ => True

instance decidableOrderlyUpgrade (s : UpgradeState) (input : UpgradeInput) :
    Decidable (OrderlyUpgrade s input) := by
  unfold OrderlyUpgrade
  split <;> infer_instance

section Step

variable {env : Env} {s t : UpgradeState} {input : UpgradeInput}

@[simp] theorem wp_onBase {α : Type} (x : Contract α) (Q : α → UpgradeState → Prop) :
    (onBase x).wp s Q ↔ x.wp s.base fun a base => Q a { s with base := base } := by
  unfold onBase
  rw [wp_zoom]

theorem wp_onBase_requireAdmin (Q : Unit → UpgradeState → Prop) (holds : Q () s) :
    (onBase (requireAdmin env)).wp s Q := by
  simp only [wp_onBase, wp_rules]
  exact fun _ _ _ => holds

theorem validateUpgradeCompatibility_readonly (fnCount errorCount : Nat) (schemaHash : Hash) :
    (validateUpgradeCompatibility fnCount errorCount schemaHash).Readonly := by
  intro s
  simp only [validateUpgradeCompatibility, refuse, wp_core]
  exact fun _ _ _ _ _ => trivial

theorem validateUpgradeSigned_wp (fnCount errorCount : Nat) (schemaHash signaturesHash : Hash) :
    (validateUpgradeSigned fnCount errorCount schemaHash signaturesHash).wp s fun _ t =>
      t = s ∧ s.upgradeFunctionSignaturesHash = some signaturesHash := by
  unfold validateUpgradeSigned
  rw [wp_bind]
  refine (validateUpgradeCompatibility_readonly _ _ _).wp fun _ => ?_
  simp only [refuse, wp_core, true_and]
  rintro current stored rfl
  exact stored

/-- What a proposal stores, and that an unsigned one finds no fingerprint. -/
structure Proposed (env : Env) (wasmHash : Hash) (s t : UpgradeState) : Prop where
  pending : ∃ proposal, t.pendingUpgrade = some proposal ∧ proposal.wasmHash = wasmHash ∧
    proposal.proposedAt = env.now ∧
    (proposal.functionSignaturesHash = none → t.upgradeFunctionSignaturesHash = none)

theorem proposeUpgradeInternal_wp (wasmHash : Hash) (fnCount errorCount : Nat) (schemaHash : Hash)
    (signaturesHash : Option Hash) :
    (proposeUpgradeInternal env wasmHash fnCount errorCount schemaHash signaturesHash).wp s
      fun _ t => Proposed env wasmHash s t := by
  unfold proposeUpgradeInternal
  rw [wp_bind]
  refine wp_onBase_requireAdmin _ ?_
  simp only [validateUpgrade, refuse, wp_bind, wp_ensure]
  intro _
  cases signaturesHash with
  | some hash =>
    simp only [wp_bind]
    refine (validateUpgradeSigned_wp fnCount errorCount schemaHash hash).mono ?_
    rintro _ _ ⟨rfl, -⟩
    rw [wp_write]
    exact ⟨_, rfl, rfl, rfl, fun unsigned => by cases unsigned⟩
  | none =>
    simp only [wp_bind, wp_read, wp_ensure]
    intro unrecorded
    refine (validateUpgradeCompatibility_readonly _ _ _).wp fun _ => ?_
    rw [wp_write]
    exact ⟨_, rfl, rfl, rfl, fun _ => unrecorded⟩

/-- What the execution of a proposal rests on and does. -/
structure Executed (env : Env) (s t : UpgradeState) (proposal : UpgradeProposal) : Prop where
  pending : s.pendingUpgrade = some proposal
  waited : saturatingAdd proposal.proposedAt upgradeTimelock ≤ env.now
  matched : ∀ bytes, proposal.functionSignaturesHash = some bytes →
    s.upgradeFunctionSignaturesHash = some bytes
  installed : t.wasm = proposal.wasmHash
  cleared : t.pendingUpgrade = none

theorem validateProposal_wp (proposal : UpgradeProposal) :
    (validateProposal proposal).wp s fun _ t => t = s ∧
      ∀ bytes, proposal.functionSignaturesHash = some bytes →
        s.upgradeFunctionSignaturesHash = some bytes := by
  unfold validateProposal
  cases signatures : proposal.functionSignaturesHash with
  | some bytes =>
    simp only [signaturesHashFromBytes, refuse, wp_core]
    intro _
    refine (validateUpgradeSigned_wp _ _ _ _).mono ?_
    rintro _ t ⟨rfl, recorded⟩
    refine ⟨rfl, fun other same => ?_⟩
    rw [← same]
    exact recorded
  | none =>
    refine (validateUpgradeCompatibility_readonly _ _ _).wp fun _ => ⟨rfl, ?_⟩
    intro bytes impossible
    cases impossible

theorem executeUpgrade_wp :
    (executeUpgrade env).wp s fun _ t => ∃ proposal, Executed env s t proposal := by
  unfold executeUpgrade
  rw [wp_bind]
  refine wp_onBase_requireAdmin _ ?_
  simp only [refuse, validateUpgrade, wp_bind, wp_read, wp_expect, wp_ensure]
  intro proposal pending waited _
  refine (validateProposal_wp proposal).mono ?_
  rintro _ _ ⟨rfl, matched⟩
  simp only [wp_write]
  exact fun _ _ => ⟨proposal, pending, waited, matched, rfl, rfl⟩

/-- **What one call does to the gate**: it proposes, executes or records, or leaves the keys alone.
-/
inductive UpgradeStep (input : UpgradeInput) (s t : UpgradeState) : Prop
  | proposes (wasmHash) (call : input.call.proposes = some wasmHash)
      (proposed : Proposed input.env wasmHash s t)
  | executes (proposal) (call : input.call = .executeUpgrade)
      (executed : Executed input.env s t proposal)
  | records (call : ∃ fnCount errorCount schemaHash signaturesHash, input.call =
      .setUpgradeManifestSigned fnCount errorCount schemaHash signaturesHash)
      (pending : t.pendingUpgrade = s.pendingUpgrade)
  | keeps (call : input.call.proposes = none ∧ input.call ≠ .executeUpgrade)
      (pending : t.pendingUpgrade = s.pendingUpgrade)
      (signatures : t.upgradeFunctionSignaturesHash = s.upgradeFunctionSignaturesHash)

theorem setUpgradeManifest_wp (fnCount errorCount : Nat) (schemaHash : Hash) :
    (setUpgradeManifest env fnCount errorCount schemaHash).wp s fun _ t =>
      t.pendingUpgrade = s.pendingUpgrade ∧
        t.upgradeFunctionSignaturesHash = s.upgradeFunctionSignaturesHash := by
  unfold setUpgradeManifest
  rw [wp_bind]
  refine wp_onBase_requireAdmin _ ?_
  simp only [wp_core]
  exact fun _ => ⟨trivial, trivial⟩

theorem execUpgrade_step : (execUpgrade input).wp s fun _ t => UpgradeStep input s t := by
  obtain ⟨env, call⟩ := input
  unfold execUpgrade
  cases call with
  | setUpgradeManifest fnCount errorCount schemaHash =>
    refine (setUpgradeManifest_wp fnCount errorCount schemaHash).mono fun _ t same => ?_
    exact .keeps ⟨rfl, by simp⟩ same.1 same.2
  | setUpgradeManifestSigned fnCount errorCount schemaHash =>
    simp only [setUpgradeManifestSigned, wp_bind]
    refine (setUpgradeManifest_wp fnCount errorCount schemaHash).mono fun _ t same => ?_
    rw [wp_write]
    exact .records ⟨_, _, _, _, rfl⟩ same.1
  | upgrade wasmHash =>
    simp only [upgrade, wp_bind]
    exact wp_onBase_requireAdmin _ ((wp_fail _ _ _).mpr trivial)
  | upgradeWithManifest wasmHash fnCount errorCount schemaHash
  | proposeUpgradeWithManifest wasmHash fnCount errorCount schemaHash =>
    exact (proposeUpgradeInternal_wp wasmHash fnCount errorCount schemaHash none).mono
      fun _ t proposed => .proposes wasmHash rfl proposed
  | proposeLegacySignedUpgrade wasmHash fnCount errorCount schemaHash signaturesHash
  | proposeSignedUpgrade wasmHash fnCount errorCount schemaHash signaturesHash =>
    exact (proposeUpgradeInternal_wp wasmHash fnCount errorCount schemaHash
      (some signaturesHash)).mono fun _ t proposed => .proposes wasmHash rfl proposed
  | executeUpgrade =>
    refine executeUpgrade_wp.mono ?_
    rintro _ t ⟨proposal, executed⟩
    exact .executes proposal rfl executed
  | other call =>
    rw [wp_onBase]
    exact fun _ _ _ => .keeps ⟨rfl, by simp⟩ rfl rfl

end Step

section Runs

variable {base : State} {history : List UpgradeEvent} {s : UpgradeState}

/-- **The invariant**: the pending proposal is the last one that was made, and if it is unsigned no
fingerprint is recorded. -/
structure Gated (history : List UpgradeEvent) (s : UpgradeState) : Prop where
  unsigned : ∀ proposal ∈ s.pendingUpgrade, proposal.functionSignaturesHash = none →
    s.upgradeFunctionSignaturesHash = none
  latest : ∀ proposal ∈ s.pendingUpgrade, ∃ before proposed since,
    history = before ++ proposed :: since ∧
    proposed.input.call.proposes = some proposal.wasmHash ∧
    proposed.input.env.now = proposal.proposedAt ∧
    ∀ other ∈ since, other.input.call.proposes = none

variable {event : UpgradeEvent} {proposal : UpgradeProposal}

theorem Gated.latest_concat (gated : Gated history s) (pending : proposal ∈ s.pendingUpgrade)
    (silent : event.input.call.proposes = none) :
    ∃ before proposed since, history ++ [event] = before ++ proposed :: since ∧
      proposed.input.call.proposes = some proposal.wasmHash ∧
      proposed.input.env.now = proposal.proposedAt ∧
      ∀ other ∈ since, other.input.call.proposes = none := by
  obtain ⟨before, proposed, since, rfl, code, time, quiet⟩ := gated.latest proposal pending
  exact ⟨before, proposed, since ++ [event], by simp, code, time,
    forall_mem_concat.mpr ⟨quiet, silent⟩⟩

theorem Gated.step {input : UpgradeInput} {t : UpgradeState} (gated : Gated history s)
    (orderly : OrderlyUpgrade s input) (stepped : UpgradeStep input s t) :
    Gated (history ++ [⟨s, input, t⟩]) t := by
  cases stepped with
  | proposes wasmHash call proposed =>
    obtain ⟨proposal, pending, code, time, unrecorded⟩ := proposed.pending
    constructor
    · rw [pending]
      rintro _ ⟨⟩ unsigned
      exact unrecorded unsigned
    · rw [pending]
      rintro _ ⟨⟩
      refine ⟨history, _, [], rfl, ?_, time.symm, by simp⟩
      rw [code]
      exact call
  | executes proposal call executed =>
    constructor <;> simp [executed.cleared]
  | records call pending =>
    obtain ⟨fnCount, errorCount, schemaHash, signaturesHash, called⟩ := call
    have signed : ∀ proposal ∈ s.pendingUpgrade, proposal.functionSignaturesHash ≠ none := by
      unfold OrderlyUpgrade at orderly
      rw [called] at orderly
      exact orderly
    constructor
    · rw [pending]
      exact fun proposal member unsigned => absurd unsigned (signed proposal member)
    · rw [pending]
      refine fun proposal member => gated.latest_concat member ?_
      show input.call.proposes = none
      rw [called]
      rfl
  | keeps call pending signatures =>
    constructor
    · rw [pending, signatures]
      exact gated.unsigned
    · rw [pending]
      exact fun proposal member => gated.latest_concat member call.1

theorem run_gated (run : UpgradeRun base history s)
    (orderly : ∀ event ∈ history, OrderlyUpgrade event.before event.input) : Gated history s := by
  induction run with
  | nil => constructor <;> simp
  | snoc run stepped ih =>
    have earlier := ih (forall_mem_concat.mp orderly).1
    have last := orderly _ List.mem_concat_self
    exact earlier.step last (execUpgrade_step () _ stepped)

theorem add_le_of_saturatingAdd_le {time delay now : Nat} (passed : saturatingAdd time delay ≤ now)
    (early : now < maxU64) : time + delay ≤ now := by
  unfold saturatingAdd at passed
  omega

theorem Gated.passes (gated : Gated history event.before) (early : event.input.env.now < maxU64)
    (executed : Executed event.input.env event.before event.after proposal) :
    PresentsSignatures event ∧ WaitsTimelock history event := by
  constructor
  · intro _ recorded stored
    cases signatures : proposal.functionSignaturesHash with
    | none =>
      rw [gated.unsigned proposal executed.pending signatures] at stored
      cases stored
    | some bytes =>
      rw [executed.matched bytes signatures] at stored
      obtain rfl := Option.some.inj stored
      exact ⟨proposal, executed.pending, signatures⟩
  · intro _
    obtain ⟨before, proposed, since, whole, code, time, quiet⟩ :=
      gated.latest proposal executed.pending
    refine ⟨before, proposed, since, whole, ?_, fun other member => ?_, ?_⟩
    · rw [executed.installed]
      exact code
    · rw [quiet other member]
      simp
    · rw [time]
      exact add_le_of_saturatingAdd_le executed.waited early

/-- **The upgrade gate**, in every run from the deployment in which no fingerprint is recorded while
an unsigned proposal is pending and no upgrade is executed at the last representable time. -/
theorem upgradeGate_of_orderly (run : UpgradeRun base history s)
    (orderly : ∀ event ∈ history, OrderlyUpgrade event.before event.input) :
    UpgradeGate history := by
  intro earlier event later whole
  have member : event ∈ history := by
    rw [whole]
    exact List.mem_append_cons_self
  obtain ⟨first, stepped, -⟩ := run.at_split whole
  have gated : Gated earlier event.before := run_gated first fun other before =>
    orderly other (by rw [whole]; exact List.mem_append_left _ before)
  have allowed := orderly event member
  cases execUpgrade_step () _ stepped with
  | executes proposal call executed =>
    refine gated.passes ?_ executed
    unfold OrderlyUpgrade at allowed
    rw [call] at allowed
    exact allowed
  | proposes wasmHash call =>
    constructor <;> intro execution <;> rw [execution] at call <;> cases call
  | records call =>
    obtain ⟨_, _, _, _, called⟩ := call
    constructor <;> intro execution <;> rw [execution] at called <;> cases called
  | keeps call => exact ⟨fun execution => absurd execution call.2,
      fun execution => absurd execution call.2⟩

end Runs

/-! ### Two runs -/

def sampleHash (byte : UInt8) : Hash := List.replicate 32 byte

def adminCalls (calls : List (Nat × UpgradeCall)) : List UpgradeInput :=
  calls.map fun (now, call) => ⟨plainEnv now [⟨2⟩], call⟩

def signedUpgrade : List UpgradeInput :=
  adminCalls [(1000, .setUpgradeManifestSigned 10 5 (sampleHash 1) (sampleHash 2)),
    (1001, .proposeSignedUpgrade (sampleHash 9) 11 5 (sampleHash 1) (sampleHash 2)),
    (87401, .executeUpgrade)]

theorem upgradeGate_signedUpgrade :
    (play execUpgrade { base := fundedState } signedUpgrade).2.wasm = sampleHash 9 ∧
      UpgradeGate (play execUpgrade { base := fundedState } signedUpgrade).1 := by
  refine ⟨by decide +kernel, upgradeGate_of_orderly (play_executes _ _ _) ?_⟩
  decide +kernel

def unsignedThenRecorded : List UpgradeInput :=
  adminCalls [(1000, .setUpgradeManifest 10 5 (sampleHash 1)),
    (1001, .upgradeWithManifest (sampleHash 9) 11 5 (sampleHash 1)),
    (1002, .setUpgradeManifestSigned 10 5 (sampleHash 1) (sampleHash 2))]

def unsignedExecution : UpgradeEvent :=
  playNext execUpgrade { base := fundedState } unsignedThenRecorded
    ⟨plainEnv 87401 [⟨2⟩], .executeUpgrade⟩

/-- With the fingerprint recorded, an upgrade that presents none is installed, and the fingerprint
is gone. -/
theorem unsignedProposal_slips_through :
    UpgradeRun fundedState
        ((play execUpgrade { base := fundedState } unsignedThenRecorded).1 ++ [unsignedExecution])
        unsignedExecution.after ∧
      unsignedExecution.before.upgradeFunctionSignaturesHash = some (sampleHash 2) ∧
      unsignedExecution.after.wasm = sampleHash 9 ∧
      unsignedExecution.after.upgradeFunctionSignaturesHash = none ∧
      ¬ UpgradeGate ((play execUpgrade { base := fundedState } unsignedThenRecorded).1 ++
        [unsignedExecution]) := by
  have recorded : unsignedExecution.before.upgradeFunctionSignaturesHash = some (sampleHash 2) := by
    decide +kernel
  have unsigned : (unsignedExecution.before.pendingUpgrade).map (·.functionSignaturesHash) =
      some none := by decide +kernel
  refine ⟨.snoc (play_executes _ _ _) rfl, recorded, by decide +kernel,
    by decide +kernel, fun gate => ?_⟩
  obtain ⟨proposal, pending, presented⟩ :=
    (gate _ unsignedExecution [] rfl).1 rfl (sampleHash 2) recorded
  rw [Option.mem_def.mp pending, Option.map_some, Option.some.injEq, presented] at unsigned
  cases unsigned

end Upgrade

end EthosContracts.TtlVault
