/-
**Releasing a vault** (`trigger_release_internal` and its callers, `partial_release`,
`distribute_release_amount`).
-/

import EthosContracts.TtlVault.Withdrawals

namespace EthosContracts.TtlVault

open Lib

variable (env : Env) (id : VaultId) (vault : Vault)

/-! ### Shares -/

/-- One share of a split; a share that is not positive is skipped. -/
def payShare (token payee : Address) (share : Int) : Contract Unit :=
  if 0 < share then do
    requireAmlCompliant env payee
    payOut env id token payee share
  else pure ()

/-- The loop over the payees of a split of `amount` with the given denominator; `distributed` has
been paid before. The last payee takes what is left. -/
def paySplit (env : Env) (id : VaultId) (token : Address) (amount denominator : Int) :
    List BeneficiaryEntry → Int → Contract Unit
  | [], _ => pure ()
  | [entry], distributed => do
    let share ← i128 (amount - distributed)
    payShare env id token entry.address share
    let _ ← i128 (distributed + share)
    pure ()
  | entry :: next :: rest, distributed => do
    let scaled ← i128 (amount * entry.bps)
    let share ← i128Div scaled denominator
    payShare env id token entry.address share
    let distributed ← i128 (distributed + share)
    paySplit env id token amount denominator (next :: rest) distributed

/-- Pay an amount to the beneficiary, or split it among the listed ones. -/
def payBeneficiaries (amount : Int) : Contract Unit :=
  if vault.beneficiaries.isEmpty then do
    requireAmlCompliant env vault.beneficiary
    payOut env id vault.tokenAddress vault.beneficiary amount
  else paySplit env id vault.tokenAddress amount 10000 vault.beneficiaries 0

/-! ### Several beneficiaries -/

/-- The triggers of the first mapping for an address; none means any. -/
def triggersOf (triggers : List (Address × List ReleaseTrigger)) (address : Address) :
    List ReleaseTrigger :=
  match triggers.find? (·.1 = address) with
  | some mapping => mapping.2
  | none => []

/-- Trigger, decline and tier of a beneficiary admit the release. -/
def admitted (s : State) (id : VaultId) (releaseAmount : Int) (mode : ReleaseTrigger)
    (entry : BeneficiaryEntry) : Bool :=
  let triggers := triggersOf (s.beneficiaries.releaseTriggers id) entry.address
  let tier := s.beneficiaries.tierThreshold id entry.address
  (triggers = [] ∨ mode ∈ triggers) ∧
    s.beneficiaries.beneficiaryStatusEntry id entry.address ≠ some .declined ∧
    ¬ (0 < tier ∧ releaseAmount < tier)

def qualifying (s : State) (id : VaultId) (releaseAmount : Int) (mode : ReleaseTrigger) :
    List BeneficiaryEntry → Contract (List BeneficiaryEntry)
  | [] => pure []
  | entry :: rest =>
    if admitted s id releaseAmount mode entry then do
      let scaled ← i128 (releaseAmount * entry.bps)
      let later ← qualifying s id releaseAmount mode rest
      if 0 < entry.minimumThreshold ∧ scaled.tdiv 10000 < entry.minimumThreshold then pure later
      else pure (entry :: later)
    else qualifying s id releaseAmount mode rest

def totalBps (entries : List BeneficiaryEntry) : Nat :=
  min (entries.map (·.bps)).sum (2 ^ 32 - 1)

/-- With nobody to pay, the amount goes back to the owner. -/
def distributeReleaseAmount (releaseAmount : Int) (mode : ReleaseTrigger) : Contract Unit := do
  let s ← read fun s => s
  let payees ← qualifying s id releaseAmount mode vault.beneficiaries
  if payees.isEmpty then payOut env id vault.tokenAddress vault.owner releaseAmount
  else paySplit env id vault.tokenAddress releaseAmount (totalBps payees) payees 0

/-! ### The gates of a release -/

/-- `oracle::query_checked` with the default bound on staleness; a failure counts as `false`. -/
def queryChecked (oracle : Address) : Bool :=
  match env.observationTimestamp oracle with
  | some time => env.now - time ≤ 900 ∧ env.queryRelease oracle
  | none => false

def conditionMet (mode : ReleaseTrigger) : ReleaseCondition → Contract Bool
  | .ttlExpiry => isExpired env id
  | .ownerInitiated => pure (mode = .manual)
  | .oracle address => pure (queryChecked env address)

def anyConditionMet (env : Env) (id : VaultId) (mode : ReleaseTrigger) :
    List ReleaseCondition → Contract Bool
  | [] => pure false
  | condition :: rest => do
    let here ← conditionMet env id mode condition
    let later ← anyConditionMet env id mode rest
    pure (here || later)

def assertGracePeriodOver : Contract Unit := do
  let entry ← read (·.checkIns.hibernation id)
  let grace ← read (·.config.releaseGracePeriodSeconds)
  let hibernated := match entry with
    | some h => min (env.now - h.startedAt) h.durationSeconds
    | none => 0
  let deadline ← u64 vault.deadline
  let expiryTime ← u64 (deadline + hibernated)
  let releaseTime ← u64 (expiryTime + grace.getD 0)
  require (releaseTime ≤ env.now) .gracePeriodActive

def assertNotVetoed : Contract Unit := do
  let expired ← isExpired env id
  let vetoed ← read (·.beneficiaries.releaseConditionVeto id)
  require (expired = true ∨ vetoed = false) .beneficiaryVetoReleaseCondition

/-- A declined role blocks the release only where there is a single beneficiary. -/
def assertBeneficiaryAccepts (total : Int) : Contract Unit := do
  let status ← read (·.beneficiaries.beneficiaryStatus id)
  require (vault.beneficiaries ≠ [] ∨ status ≠ some .declined) .invalidBeneficiary
  let acceptance ← read (·.beneficiaries.beneficiaryConditionalAcceptance id)
  require (∀ entry ∈ acceptance, entry.minBalanceThreshold ≤ total) .insufficientBalance

/-- Proof of life and votes. -/
def assertReleaseVoted : Contract Unit := do
  let proof ← read (·.beneficiaries.proofOfLife id)
  let threshold ← read (·.beneficiaries.releaseVoteThreshold id)
  match proof with
  | some entry => require (env.now ≤ entry.validUntil) .proofOfLifeRequired
  | none => require (threshold.isNone) .proofOfLifeRequired
  let votes ← read (·.beneficiaries.releaseVotes id)
  require (∀ needed ∈ threshold, needed ≤ (votes.filter (·.approve)).length) .votingNotEnabled

/-- An acceptance deadline has passed that the owner did not approve. -/
def acceptanceMissed (acceptance : Option ConditionalAcceptanceEntry) : Bool :=
  match acceptance with
  | some entry =>
    match entry.acceptanceDeadline with
    | some deadline => deadline < env.now ∧ entry.approvedByOwner = false
    | none => false
  | none => false

/-- A vesting schedule of any kind is attached. -/
def hasVesting (s : State) (id : VaultId) (vault : Vault) : Bool :=
  (s.vesting.schedule id 0).isSome || (s.vesting.milestones id).isSome ||
    (s.vesting.beneficiarySchedule id vault.beneficiary).isSome ||
    vault.beneficiaries.any fun entry =>
      (s.vesting.beneficiarySchedule id entry.address).isSome

/-! ### Release -/

def refundMissedAcceptance : Contract Unit := do
  payOut env id vault.tokenAddress vault.owner vault.balance
  saveVault id { vault with balance := 0, status := .cancelled }

def markReleaseAttempted : Contract Unit :=
  write fun s => { s with
    beneficiaries.releaseAttempted :=
      Function.update s.beneficiaries.releaseAttempted id true }

/-- The amount of a release: the balance up to the spending limit. -/
def Vault.releaseAmount : Int :=
  match vault.spendingLimit with
  | some limit => min vault.balance limit
  | none => vault.balance

/-- The release without vesting. A burn is deducted only from a split among beneficiaries. -/
def releaseNow (mode : ReleaseTrigger) : Contract Unit := do
  let scaled ← i128 (vault.releaseAmount * vault.burnPercentage)
  let netAmount ← i128 (vault.releaseAmount - scaled.tdiv 10000)
  if vault.beneficiaries.isEmpty then do
    requireAmlCompliant env vault.beneficiary
    payOut env id vault.tokenAddress vault.beneficiary vault.releaseAmount
  else distributeReleaseAmount env id vault netAmount mode
  let balance ← i128 (vault.balance - vault.releaseAmount)
  if balance = 0 then do
    saveVault id { vault with balance := balance, status := .released }
    setVaultDuplicate vault.owner vault.beneficiary vault.checkInInterval none
  else saveVault id { vault with balance := balance }

/-- The gates of a release, then the refund of a missed acceptance, the switch to vesting, or the
payment. -/
def triggerReleaseInternal (mode : ReleaseTrigger) : Contract Unit := do
  assertNotPaused
  let vault ← loadVault id
  let attempted ← read (·.beneficiaries.releaseAttempted id)
  require (attempted = false ∧ vault.status = .locked) .alreadyReleased
  require (vault.balance ≠ 0) .emptyVault
  let conditions ← read (·.beneficiaries.releaseConditions id)
  let met ← anyConditionMet env id mode (conditions.getD [vault.releaseCondition])
  require (met = true) .conditionsNotApproved
  let expired ← isExpired env id
  require (expired = true) .notExpired
  assertGracePeriodOver env id vault
  assertNotVetoed env id
  assertBeneficiaryAccepts id vault vault.balance
  assertReleaseVoted env id
  let acceptance ← read (·.beneficiaries.conditionalAcceptance id)
  if acceptanceMissed env acceptance then refundMissedAcceptance env id vault
  else do
    let rotated ← applyRotation env id vault
    let vesting ← read (hasVesting · id rotated)
    markReleaseAttempted id
    if vesting then saveVault id { rotated with status := .released }
    else releaseNow env id rotated mode

def triggerRelease : Contract Unit :=
  triggerReleaseInternal env id .expiry

def triggerReleaseManual : Contract Unit :=
  triggerReleaseInternal env id .manual

def panicRelease (caller : Address) : Contract Unit := do
  let _ ← loadOwned env id caller
  triggerReleaseInternal env id .manual

/-- The owner's early payment to the beneficiaries. -/
def partialRelease (amount : Int) : Contract Unit := do
  assertNotPaused
  require (0 < amount) .invalidAmount
  let vault ← loadVault id
  requireAuth env vault.owner
  require (vault.status = .locked) .alreadyReleased
  let expired ← isExpired env id
  require (expired = false) .vaultExpired
  require (amount ≤ vault.balance) .insufficientBalance
  payBeneficiaries env id vault amount
  let balance ← i128 (vault.balance - amount)
  saveVault id { vault with balance := balance }

end EthosContracts.TtlVault
