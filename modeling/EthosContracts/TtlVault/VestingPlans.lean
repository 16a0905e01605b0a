/-
**Vesting by milestones, by stagger entries and per beneficiary; yield** (`vesting.rs`, `views.rs`,
`admin.rs`).

Milestones unlock when an oracle reports progress. The yield is on a staked amount, which no call
sets above zero.
-/

import EthosContracts.TtlVault.Vesting

namespace EthosContracts.TtlVault

open Lib Function

variable (env : Env) (id : VaultId) (caller : Address)

/-! ### Milestones -/

def setMilestones (schedule : MilestoneVestingSchedule) : Contract Unit :=
  write fun s => { s with
    vesting.milestones := update s.vesting.milestones id (some schedule) }

def loadMilestones : Contract MilestoneVestingSchedule := do
  let stored ← read (·.vesting.milestones id)
  found stored .vestingNotFound

def setMilestoneVesting (milestones : List MilestoneEntry) (oracle : Address) : Contract Unit := do
  assertNotPaused
  let vault ← loadOwnedLocked env id caller
  require (vault.balance ≠ 0) .emptyVault
  let schedule ← read (·.vesting.schedule id 0)
  require (schedule.isNone) .alreadyReleased
  require (milestones ≠ []) .invalidBps
  ensure ((milestones.map (·.bps)).sum ≤ 2 ^ 32 - 1) .overflow
  require ((milestones.map (·.bps)).sum = 10000) .invalidBps
  require (∀ milestone ∈ milestones, milestone.isFulfilled = false) .invalidAmount
  setMilestones id ⟨vault.balance, milestones, 0, oracle, false⟩

/-- `pause_milestone_vesting` and `resume_milestone_vesting`. -/
def setMilestonesPaused (paused : Bool) : Contract Unit := do
  assertNotPaused
  let _ ← loadOwned env id caller
  let schedule ← loadMilestones id
  require (schedule.paused ≠ paused) .paused
  setMilestones id { schedule with paused := paused }

def pauseMilestoneVesting : Contract Unit :=
  setMilestonesPaused env id caller true

def resumeMilestoneVesting : Contract Unit :=
  setMilestonesPaused env id caller false

def updateMilestones {α : Type} (change : MilestoneEntry → α → MilestoneEntry) :
    List (Nat × α) → List MilestoneEntry → Contract (List MilestoneEntry)
  | [], milestones => pure milestones
  | (index, value) :: rest, milestones => do
    let milestone ← found milestones[index]? .invalidAmount
    require (milestone.isFulfilled = false) .invalidAmount
    updateMilestones change rest (milestones.set index (change milestone value))

def adjustMilestoneTargets (adjustments : List (Nat × Int)) : Contract Unit := do
  assertNotPaused
  let _ ← loadOwned env id caller
  let schedule ← loadMilestones id
  let milestones ← updateMilestones (fun milestone target =>
    { milestone with targetValue := target }) adjustments schedule.milestones
  setMilestones id { schedule with milestones := milestones }

def emergencyFulfillMilestones (milestoneIndices : List Nat) : Contract Unit := do
  assertNotPaused
  let _ ← loadOwned env id caller
  let schedule ← loadMilestones id
  let milestones ← updateMilestones (fun milestone () =>
    { milestone with
      currentValue := max milestone.currentValue milestone.targetValue
      isFulfilled := true }) (milestoneIndices.map fun index => (index, ())) schedule.milestones
  require (milestoneIndices ≠ []) .invalidAmount
  setMilestones id { schedule with milestones := milestones }

/-- A milestone after a report: reaching the target fulfils it, unless it had reached it before. -/
def MilestoneEntry.reported (milestone : MilestoneEntry) (value : Int) : MilestoneEntry :=
  { milestone with
    currentValue := max value 0
    isFulfilled := decide (milestone.targetValue ≤ max value 0 ∧
      milestone.currentValue < milestone.targetValue) }

def reportMilestoneProgress (milestoneIndices : List Nat) (currentValues : List Int) : Contract Unit
    := do
  assertNotPaused
  require (milestoneIndices.length = currentValues.length) .invalidAmount
  let schedule ← loadMilestones id
  require (schedule.paused = false) .paused
  requireAuth env schedule.oracle
  let milestones ← updateMilestones MilestoneEntry.reported
    (milestoneIndices.zip currentValues) schedule.milestones
  if milestoneIndices.isEmpty then pure ()
  else do
    let _ ← loadVault id
    setMilestones id { schedule with milestones := milestones }

def MilestoneEntry.claimable (milestone : MilestoneEntry) : Bool :=
  milestone.isFulfilled && !milestone.claimed

def sumMilestones (totalAmount claimedAmount : Int) : List MilestoneEntry → Int → Contract Int
  | [], total => pure total
  | milestone :: rest, total =>
    if milestone.claimable then do
      let share ←
        if rest.isEmpty then do
          let left ← i128 (totalAmount - total)
          i128 (left - claimedAmount)
        else do
          let scaled ← i128 (totalAmount * milestone.bps)
          pure (scaled.tdiv 10000)
      let total ← i128 (total + share)
      sumMilestones totalAmount claimedAmount rest total
    else sumMilestones totalAmount claimedAmount rest total

def claimMilestoneInstallments : Contract Unit := do
  assertNotPaused
  let vault ← loadVault id
  require (vault.status = .released) .alreadyReleased
  let schedule ← loadMilestones id
  require (schedule.paused = false) .paused
  let amount ← sumMilestones schedule.totalAmount schedule.claimedAmount schedule.milestones 0
  require (schedule.milestones.any (·.claimable) = true) .nothingToClaimYet
  require (amount ≤ vault.balance) .insufficientBalance
  payBeneficiaries env id vault amount
  let balance ← i128 (vault.balance - amount)
  let claimedAmount ← i128 (schedule.claimedAmount + amount)
  saveVault id { vault with balance := balance }
  setMilestones id
    { schedule with
      milestones := schedule.milestones.map fun milestone =>
        if milestone.claimable then { milestone with claimed := true } else milestone
      claimedAmount := claimedAmount }

/-! ### Stagger entries -/

def setVestingStagger (entries : List VestingStaggerEntry) : Contract Unit := do
  assertNotPaused
  let _ ← loadOwnedLocked env id caller
  ensure ((entries.map (·.bps)).sum ≤ 2 ^ 32 - 1) .overflow
  require ((entries.map (·.bps)).sum = 10000) .invalidBps
  write fun s => { s with
    vesting.stagger := update s.vesting.stagger id (some entries) }

def staggerShare (entry : VestingStaggerEntry) (balance : Int) : Contract (Int × Nat) :=
  if entry.numInstallments ≤ entry.claimedInstallments ∨ env.now < entry.startTime then
    pure (0, entry.claimedInstallments)
  else do
    let unlocked ← unlockedInstallments env entry.startTime entry.interval entry.numInstallments
    let claimable := unlocked - entry.claimedInstallments
    if claimable = 0 then pure (0, entry.claimedInstallments)
    else do
      let scaled ← i128 (balance * entry.bps)
      let share := scaled.tdiv 10000
      if entry.numInstallments ≤ unlocked then pure (share, unlocked)
      else do
        let amount ← i128 (share.tdiv entry.numInstallments * claimable)
        pure (amount, unlocked)

def claimStaggers (env : Env) (id : VaultId) (token caller : Address) :
    List VestingStaggerEntry → Int → Int → Contract (List VestingStaggerEntry × Int × Int)
  | [], balance, total => pure ([], balance, total)
  | entry :: rest, balance, total =>
    if entry.beneficiary = caller then do
      let share ← staggerShare env entry balance
      if 0 < share.1 then do
        requireAmlCompliant env caller
        payOut env id token caller share.1
        let balance ← i128 (balance - share.1)
        let total ← i128 (total + share.1)
        let later ← claimStaggers env id token caller rest balance total
        pure ({ entry with claimedInstallments := share.2 } :: later.1, later.2)
      else do
        let later ← claimStaggers env id token caller rest balance total
        pure (entry :: later.1, later.2)
    else do
      let later ← claimStaggers env id token caller rest balance total
      pure (entry :: later.1, later.2)

def claimStaggeredVesting : Contract Unit := do
  assertNotPaused
  requireAuth env caller
  let vault ← loadVault id
  require (vault.status = .released) .alreadyReleased
  let stored ← read (·.vesting.stagger id)
  let entries ← found stored .vestingStaggerNotFound
  let result ← claimStaggers env id vault.tokenAddress caller entries vault.balance 0
  require (∃ entry ∈ entries, entry.beneficiary = caller) .notBeneficiary
  require (result.2.2 ≠ 0) .nothingToClaimYet
  saveVault id { vault with balance := result.2.1 }
  write fun s => { s with
    vesting.stagger := update s.vesting.stagger id (some result.1) }

/-! ### Schedules of one beneficiary -/

def setBeneficiarySchedule (beneficiary : Address) (schedule : BeneficiaryVestingSchedule) :
    Contract Unit :=
  write fun s => { s with
    vesting.beneficiarySchedule := update s.vesting.beneficiarySchedule id
      (update (s.vesting.beneficiarySchedule id) beneficiary (some schedule)) }

def setBeneficiaryVesting (beneficiary : Address)
    (startTime interval numInstallments cliffPeriod : Nat) : Contract Unit := do
  let vault ← loadOwned env id caller
  require (interval ≠ 0 ∧ numInstallments ≠ 0) .invalidAmount
  setBeneficiarySchedule id beneficiary
    ⟨beneficiary, id, startTime, interval, numInstallments, 0, vault.balance, cliffPeriod⟩

def claimBeneficiaryVesting (beneficiary : Address) : Contract Unit := do
  let vault ← loadVault id
  require (vault.status = .released) .alreadyReleased
  let stored ← read (·.vesting.beneficiarySchedule id beneficiary)
  let schedule ← found stored .vestingNotFound
  let cliff ← u64 (schedule.startTime + schedule.cliffPeriod)
  require (cliff ≤ env.now) .cliffNotReached
  let available ←
    unlockedInstallments env schedule.startTime schedule.interval schedule.numInstallments
  require (schedule.claimedInstallments < available) .nothingToClaimYet
  let perInstallment ← i128Div schedule.totalAmount schedule.numInstallments
  let scaled ← i128 (perInstallment * ((available - schedule.claimedInstallments : Nat) : Int))
  let amount := if available = schedule.numInstallments then vault.balance else scaled
  require (0 < amount ∧ amount ≤ vault.balance) .invalidAmount
  let balance ← i128 (vault.balance - amount)
  saveVault id { vault with balance := balance }
  setBeneficiarySchedule id beneficiary { schedule with claimedInstallments := available }
  requireAmlCompliant env beneficiary
  payOut env id vault.tokenAddress beneficiary amount

/-! ### Staking and yield -/

def setStaking (staking : Option TokenStaking) : Contract Unit :=
  write fun s => { s with
    vesting.staking := update s.vesting.staking id staking }

def enableTokenStaking (stakingPool : Address) (annualYieldBps : Nat) : Contract Unit := do
  let vault ← loadVault id
  requireAuth env vault.owner
  setStaking id (some ⟨id, stakingPool, 0, env.now, annualYieldBps, true⟩)

def disableTokenStaking : Contract Unit := do
  let vault ← loadVault id
  requireAuth env vault.owner
  let staking ← read (·.vesting.staking id)
  setStaking id (staking.map fun staking => { staking with isActive := false })

def setYieldConfig (config : YieldDistributionConfig) : Contract Unit :=
  write fun s => { s with
    vesting.yieldDistribution :=
      update s.vesting.yieldDistribution id (some config) }

def setYieldDistribution (mode : YieldDistributionMode) : Contract Unit := do
  let vault ← loadVault id
  requireAuth env vault.owner
  setYieldConfig id ⟨id, mode, env.now, 0, 0⟩

/-- `checked_add` with the old value kept on overflow. -/
def addOrKeep (a b : Int) : Int := if InI128 (a + b) then a + b else a

/-- `checked_mul` and `checked_div` with zero on overflow. -/
def scaleOrZero (a b divisor : Int) : Int := if InI128 (a * b) then (a * b).tdiv divisor else 0

/-- The yield since the last distribution or the start of the stake. -/
def yieldAmount (staking : TokenStaking) (config : YieldDistributionConfig) : Int :=
  let elapsed := env.now - max config.lastDistribution staking.stakingStart
  if InI128 (staking.stakedAmount * staking.annualYieldBps) then
    scaleOrZero (staking.stakedAmount * staking.annualYieldBps) elapsed (10000 * 365 * 86400)
  else 0

/-- The beneficiary's part of a yield; the rest is added to the balance. -/
def YieldDistributionMode.beneficiaryPart (mode : YieldDistributionMode) (amount : Int) : Int :=
  match mode with
  | .distributeToBeneficiary => amount
  | .reinvest => 0
  | .split beneficiaryBps => scaleOrZero amount beneficiaryBps 10000

def distributeYield : Contract Unit := do
  let vault ← loadVault id
  requireAuth env vault.owner
  let storedStaking ← read (·.vesting.staking id)
  let staking ← found storedStaking .invalidAmount
  let storedConfig ← read (·.vesting.yieldDistribution id)
  let config ← found storedConfig .invalidAmount
  require (staking.isActive = true) .invalidAmount
  let amount := yieldAmount env staking config
  if amount ≤ 0 then pure ()
  else do
    let paid := config.mode.beneficiaryPart amount
    let reinvested := saturateI128 (amount - paid)
    if 0 < paid then do
      requireAmlCompliant env vault.beneficiary
      payOut env id vault.tokenAddress vault.beneficiary paid
    else pure ()
    setYieldConfig id
      { config with
        lastDistribution := env.now
        totalDistributed :=
          if 0 < paid then addOrKeep config.totalDistributed paid else config.totalDistributed
        totalReinvested :=
          if 0 < reinvested then addOrKeep config.totalReinvested reinvested
          else config.totalReinvested }
    saveVault id { vault with
      balance := if 0 < reinvested then addOrKeep vault.balance reinvested else vault.balance }

end EthosContracts.TtlVault
